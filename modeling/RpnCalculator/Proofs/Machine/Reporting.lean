import Mathlib.Logic.ExistsUnique
import RpnCalculator.Proofs.Machine.Flattening
import RpnCalculator.Proofs.Machine.Reachable

/-!
# Lexemes that report an error

A lexeme that prints on standard error prints one line there, and nothing else comes of it. It can
therefore be left out of a line: `Machine.unreported` leaves out all such lexemes, each judged by the
machine that it is fed to, and what remains of the line does the same without a word on standard
error.
-/

namespace RpnCalculator

/-- A text is a line when its only line feed is at its end. -/
def Text.IsLine (text : Text) : Prop := text.count '\n' = 1 ∧ text.getLast? = some '\n'

instance (text : Text) : Decidable text.IsLine := inferInstanceAs (Decidable (_ ∧ _))

theorem Text.isLine_line {text : Text} (h : '\n' ∉ text) : Text.IsLine (Event.line text) := by
  refine ⟨?_, ?_⟩
  · rw [Event.line, List.count_append, List.count_eq_zero_of_not_mem h, List.count_singleton_self]
  · rw [Event.line, List.getLast?_concat]

theorem Text.IsLine.ne_nil {text : Text} (h : text.IsLine) : text ≠ [] := by
  rintro rfl
  exact absurd h.2 (by simp)

/-- The ways in which a lexeme can end. -/
inductive Ending where
  | quiet
  | report
  | fault
  | overrun (text : Text)
deriving DecidableEq, Repr

/-- The failure in which a lexeme ends. -/
def Ending.failure : Ending → Option Failure
  | quiet => none
  | report => none
  | fault => some .arithmeticFault
  | overrun text => some (.invalidNumeral 10 text)

namespace Run

variable {r s : Run} {m : Machine}

/-- Whether a run of the machine `m` ends in a certain way: with nothing on standard error, with one
line there and nothing else, in an arithmetic fault with nothing printed at all, or in that a numeral
is too long with nothing done at all. -/
def EndsIn (r : Run) (m : Machine) : Ending → Prop
  | .quiet => r.failure = none ∧ r.err = []
  | .report => r.failure = none ∧ r.machine = m ∧ r.out = [] ∧ r.err.IsLine
  | .fault => r.failure = some .arithmeticFault ∧ r.out = [] ∧ r.err = []
  | .overrun text =>
    r.failure = some (.invalidNumeral 10 text) ∧ r.machine = m ∧ r.out = [] ∧ r.err = []

instance (r : Run) (m : Machine) (ending : Ending) : Decidable (r.EndsIn m ending) :=
  match ending with
  | .quiet => inferInstanceAs (Decidable (_ ∧ _))
  | .report => inferInstanceAs (Decidable (_ ∧ _ ∧ _ ∧ _))
  | .fault => inferInstanceAs (Decidable (_ ∧ _ ∧ _))
  | .overrun _ => inferInstanceAs (Decidable (_ ∧ _ ∧ _ ∧ _))

theorem EndsIn.failure {ending : Ending} (h : r.EndsIn m ending) : r.failure = ending.failure := by
  cases ending <;> exact h.1

/-- A run ends in no two ways. -/
theorem EndsIn.unique {a b : Ending} (ha : r.EndsIn m a) (hb : r.EndsIn m b) : a = b := by
  have hfailure : a.failure = b.failure := ha.failure.symm.trans hb.failure
  have hreport (hquiet : r.EndsIn m .quiet) (h : r.EndsIn m .report) : False :=
    h.2.2.2.ne_nil hquiet.2
  cases a with
  | quiet =>
      cases b with
      | quiet => rfl
      | report => exact (hreport ha hb).elim
      | _ => cases hfailure
  | report =>
      cases b with
      | quiet => exact (hreport hb ha).elim
      | report => rfl
      | _ => cases hfailure
  | fault =>
      cases b with
      | fault => rfl
      | _ => cases hfailure
  | overrun text =>
      cases b with
      | overrun other =>
          cases hfailure
          rfl
      | _ => cases hfailure

/-- `r` is the run `s` without what `s` prints on standard error. -/
structure Mutes (r s : Run) : Prop extends Agrees r s where
  err : r.err = []

theorem Mutes.refl (h : r.err = []) : r.Mutes r := ⟨.refl r, h⟩

/-- Two runs that begin with the same quiet one. -/
theorem Mutes.andThen {next other : Machine → Run} (hfailure : r.failure = none)
    (herr : r.err = []) (h : (next r.machine).Mutes (other r.machine)) :
    (r.andThen next).Mutes (r.andThen other) := by
  refine ⟨.andThen h.toAgrees, ?_⟩
  rw [andThen_of_not_failure hfailure, Run.err, Event.errOf_append]
  rw [Run.err] at herr
  rw [herr]
  exact h.err

/-- What has no part in standard output may be left out at the beginning. -/
theorem Mutes.andThen_right {next : Machine → Run} (hfailure : r.failure = none)
    (hout : r.out = []) (h : s.Mutes (next r.machine)) : s.Mutes (r.andThen next) :=
  ⟨(Agrees.quiet_andThen hfailure hout h.toAgrees.symm).symm, h.err⟩

end Run

namespace Machine

variable {m : Machine}

/-- The lexemes of a list that do not report an error when the list is run. After a failure no
lexeme does. -/
def unreported (m : Machine) : List Lexeme → List Lexeme
  | [] => []
  | x :: xs =>
    let r := (m.act x).contain
    if r.EndsIn m .report then r.machine.unreported xs
    else if r.failure.isSome then x :: xs
    else x :: r.machine.unreported xs

theorem Outcome.exists_endsIn {x : Lexeme} {r : Run} (h : Outcome m x r) :
    ∃ ending, r.EndsIn m ending := by
  cases h with
  | quiet hfailure herr => exact ⟨.quiet, hfailure, herr⟩
  | @report e text hout herr htext =>
      refine ⟨.report, rfl, rfl, ?_, ?_⟩
      · rw [Run.out, Run.printing, Event.outOf_cons, hout]
        rfl
      · rw [Run.err, Run.printing, Event.errOf_cons, herr, Event.errOf_nil, List.append_nil]
        exact Text.isLine_line htext
  | halt hhalts =>
      cases hhalts with
      | fault _ => exact ⟨.fault, rfl, rfl, rfl⟩
      | overrun _ => exact ⟨.overrun x.text, rfl, rfl, rfl, rfl⟩

/-- A lexeme of a line that is no expression ends in one way only. -/
theorem existsUnique_endsIn_act (hm : m.Valid) {x : Lexeme} (hx : x.Proper)
    (hkind : x.kind ≠ .expression) : ∃! ending, (m.act x).contain.EndsIn m ending := by
  obtain ⟨ending, hending⟩ := (outcome_act hm.1 hx hkind).exists_endsIn
  exact ⟨ending, hending, fun other hother => hother.unique hending⟩

/-- A lexeme overruns in one case only. -/
theorem endsIn_overrun_iff (hm : m.Valid) {x : Lexeme} (hx : x.Proper) (hkind : x.kind ≠ .expression)
    {text : Text} :
    (m.act x).contain.EndsIn m (.overrun text) ↔ Overruns m x ∧ text = x.text := by
  constructor
  · intro h
    obtain ⟨next, hhalts⟩ := (outcome_act hm.1 hx hkind).of_failure h.1
    cases hhalts with
    | overrun hoverruns => exact ⟨hoverruns, rfl⟩
  · rintro ⟨hoverruns, rfl⟩
    rw [act_of_halts hx (.overrun hoverruns)]
    exact ⟨rfl, rfl, rfl, rfl⟩

theorem feed_eq_act {x : Lexeme} (hx : x.kind ≠ .expression) (m : Machine) :
    m.feed x = m.act x :=
  feedWith_eq_act hx m

/-- Without the lexemes that report an error, a loop does the same and is quiet. -/
theorem mutes_loop_unreported (hm : m.Valid) {xs : List Lexeme}
    (hxs : ∀ x ∈ xs, x.Proper ∧ x.kind ≠ .expression) :
    (loop act m [] (m.unreported xs)).Mutes (loop act m [] xs) := by
  induction xs generalizing m with
  | nil => exact .refl rfl
  | cons x xs ih =>
      obtain ⟨hx, hkind⟩ := hxs x List.mem_cons_self
      obtain ⟨ending, hending, hunique⟩ := existsUnique_endsIn_act hm hx hkind
      have hreport (hne : ending ≠ .report) : ¬ (m.act x).contain.EndsIn m .report := by
        intro h
        exact hne (hunique _ h).symm
      have hnext : (m.act x).contain.machine.Valid := by
        rw [Run.machine_contain]
        exact hm.act x
      have hrest := ih hnext fun y hy => hxs y (List.mem_cons_of_mem _ hy)
      rw [unreported]
      cases ending with
      | quiet =>
          rw [if_neg (hreport (by simp)), hending.1, if_neg (by simp), loop_cons, loop_cons]
          exact .andThen hending.1 hending.2 hrest
      | report =>
          have hsame := hending.2.1
          rw [if_pos hending, loop_cons]
          refine .andThen_right hending.1 hending.2.2.1 ?_
          rw [hsame] at hrest ⊢
          exact hrest
      | fault =>
          rw [if_neg (hreport (by simp)), hending.1, if_pos (by simp), loop_cons,
            Run.andThen_of_failure hending.1]
          exact .refl hending.2.2
      | overrun text =>
          rw [if_neg (hreport (by simp)), hending.1, if_pos (by simp), loop_cons,
            Run.andThen_of_failure hending.1]
          exact .refl hending.2.2.2

/-- A lexeme of a line that is no expression either prints nothing on standard error, or prints one
line there and changes nothing, or faults with nothing printed, or is a numeral that is too long, at
which nothing happens but that the run ends. The lexemes that report an error can be left out of a
flattened line. -/
theorem endsIn_feed_and_mutes_unreported (hm : m.Reachable) (hverbose : m.verbose = false) :
    (∀ comments line, ∀ x ∈ lexemes comments line, x.kind ≠ .expression →
      (∃! ending, (m.feed x).contain.EndsIn m ending) ∧
        ∀ text, (m.feed x).contain.EndsIn m (.overrun text) ↔ Overruns m x ∧ text = x.text) ∧
      ∀ comments line,
        (loop act m [] (m.unreported (flatLexemes comments line))).Mutes
          (m.process line comments) := by
  refine ⟨?_, ?_⟩
  · intro comments line x hx hkind
    rw [feed_eq_act hkind]
    have hproper := Lexeme.proper_of_mem_lexemes hx
    exact ⟨existsUnique_endsIn_act hm.valid hproper hkind,
      fun _ => endsIn_overrun_iff hm.valid hproper hkind⟩
  · intro comments line
    rw [process_eq_loop_act hverbose]
    exact mutes_loop_unreported hm.valid fun x hx =>
      ⟨proper_of_mem_flatLexemes hx, kind_of_mem_flatLexemes hx⟩

/-- A machine that has run a line. -/
def withSeven : Machine := ((ofSeed 1 false).perform (.process "7".toList true)).machine

/-- The division by zero and the unknown character are left out, and the addition finds the operands
that the division has put back. A numeral that is too long ends in none of the other ways. -/
theorem mutes_withSeven :
    withSeven.Reachable ∧ withSeven.verbose = false ∧
      (∃! ending, (withSeven.feed ⟨.operator, ['/']⟩).contain.EndsIn withSeven ending) ∧
        (loop act withSeven [] (withSeven.unreported (flatLexemes true "0 / $ +".toList))).Mutes
          (withSeven.process "0 / $ +".toList true) ∧
          (withSeven.process "0 / $ +".toList true).machine.stack.toList = [7] ∧
            (withSeven.process "0 / $ +".toList true).events =
              [.complaint .divisionByZero, .complaint (.unrecognised ['$'])] ∧
              (withSeven.feed Numeral.tooManyOnes.lexeme).contain.EndsIn withSeven
                (.overrun Numeral.tooManyOnes.text) := by
  have hreachable : withSeven.Reachable := (Reachable.ofSeed 1 false).perform _
  have hverbose : withSeven.verbose = false := by decide +kernel
  have hall := endsIn_feed_and_mutes_unreported hreachable hverbose
  have hmem : Numeral.tooManyOnes.lexeme ∈ lexemes true Numeral.tooManyOnes.text := by
    rw [Numeral.lexemes_text]
    exact List.mem_singleton_self _
  have hlong := Numeral.tooLong_tooManyOnes
  have hkind : Numeral.tooManyOnes.lexeme.kind ≠ .expression := by simp [hlong.1]
  exact ⟨hreachable, hverbose, (hall.1 true "/".toList _ (by decide +kernel) (by decide)).1,
    hall.2 true "0 / $ +".toList, by decide +kernel, by decide +kernel,
    ((hall.1 true _ _ hmem hkind).2 _).2 ⟨⟨by decide +kernel, hlong⟩, rfl⟩⟩

end Machine

end RpnCalculator
