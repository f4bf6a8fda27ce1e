import RpnCalculator.Proofs.Machine.Evaluation
import RpnCalculator.Proofs.Machine.Turns

/-!
# What a verbose machine adds

A machine does the same whether or not it prints conversions, but for the lines that announce them.
`Run.terse` leaves these lines out of a run, and a machine that prints no conversions does just what
is left (`process_terse`). A lexeme that is no expression announces nothing, so nothing is announced
while a converted expression runs, and each expression that is converted is announced once, before
anything else is printed about it (`err_of_verbose`).
-/

namespace RpnCalculator

namespace Event

/-- Whether an event announces a conversion. -/
def isConversion : Event → Bool
  | conversion _ _ => true
  | _ => false

theorem out_of_isConversion {e : Event} (h : e.isConversion) : e.out = [] := by
  cases e with
  | conversion source result => rfl
  | _ => cases h

end Event

/-- The same machine, where conversions are not printed. -/
def Machine.terse (m : Machine) : Machine := { m with verbose := false }

namespace Run

variable {r s : Run}

/-- The same run without the announcements of conversions. -/
def terse (r : Run) : Run :=
  ⟨r.machine.terse, r.events.filter fun e => !e.isConversion, r.failure⟩

theorem mem_events_terse {e : Event} :
    e ∈ r.terse.events ↔ e ∈ r.events ∧ e.isConversion = false := by
  simp [terse]

theorem out_terse (r : Run) : r.terse.out = r.out := by
  cases r with
  | mk machine events failure =>
  induction events with
  | nil => rfl
  | cons e events ih =>
      cases he : e.isConversion with
      | true =>
          have hout := Event.out_of_isConversion he
          simpa [out, terse, he, hout] using ih
      | false => simpa [out, terse, he] using ih

theorem terse_contain (r : Run) : r.contain.terse = r.terse.contain := by
  have hfailure : r.terse.failure = r.failure := rfl
  unfold contain
  rw [hfailure]
  split
  · simp [terse, Event.isConversion]
  · rfl

theorem terse_andThen {next other : Machine → Run}
    (h : (next r.machine).terse = other r.machine.terse) :
    (r.andThen next).terse = r.terse.andThen other := by
  have hmachine : r.terse.machine = r.machine.terse := rfl
  cases hfailure : r.failure with
  | some failure => rw [andThen_of_failure hfailure, andThen_of_failure (r := r.terse) hfailure]
  | none =>
      rw [andThen_of_not_failure hfailure, andThen_of_not_failure (r := r.terse) hfailure, hmachine,
        ← h]
      simp [terse]

/-- `s` is what becomes of `r` without announcements, and there are none in `r`. -/
structure Plain (r s : Run) : Prop where
  terse : s = r.terse
  not_isConversion : ∀ e ∈ r.events, e.isConversion = false

theorem plain_idle (m : Machine) : (idle m).Plain (idle m.terse) :=
  ⟨rfl, by simp⟩

theorem plain_failing (m : Machine) (failure : Failure) :
    (failing m failure).Plain (failing m.terse failure) :=
  ⟨rfl, by simp [failing]⟩

theorem plain_printing {e : Event} (h : e.isConversion = false) (m : Machine) :
    (printing m [e]).Plain (printing m.terse [e]) :=
  ⟨by simp [printing, Run.terse, h], by simp [printing, h]⟩

theorem Plain.err (h : r.Plain s) : s.err = r.err := by
  have hevents : s.events = r.events := by
    rw [h.terse]
    exact List.filter_eq_self.2 fun e he => by rw [h.not_isConversion e he]; rfl
  exact congrArg Event.errOf hevents

theorem Plain.andThen {next other : Machine → Run} (h : r.Plain s)
    (hnext : (next r.machine).Plain (other r.machine.terse)) :
    (r.andThen next).Plain (s.andThen other) := by
  refine ⟨?_, ?_⟩
  · rw [h.terse, terse_andThen hnext.terse.symm]
  · cases hfailure : r.failure with
    | some failure =>
        rw [andThen_of_failure hfailure]
        exact h.not_isConversion
    | none =>
        rw [andThen_of_not_failure hfailure]
        intro e he
        exact (List.mem_append.1 he).elim (h.not_isConversion e) (hnext.not_isConversion e)

theorem Plain.contain (h : r.Plain s) : r.contain.Plain s.contain := by
  refine ⟨by rw [h.terse, terse_contain], ?_⟩
  unfold Run.contain
  split
  · intro e he
    rcases List.mem_append.1 he with he | he
    · exact h.not_isConversion e he
    · rw [List.mem_singleton.1 he]
      rfl
  · exact h.not_isConversion

end Run

namespace Machine

variable {m : Machine}

@[simp] theorem stack_terse (m : Machine) : m.terse.stack = m.stack := rfl

@[simp] theorem comment_terse (m : Machine) : m.terse.comment = m.comment := rfl

@[simp] theorem pop_terse (m : Machine) : m.terse.pop = m.pop.terse := rfl

theorem terse_eq_terse_iff {n : Machine} :
    m.terse = n.terse ↔ m.stack = n.stack ∧ m.comment = n.comment ∧ m.random = n.random := by
  simp [terse, and_comm]

theorem eq_of_terse_eq {n : Machine} (h : m.terse = n.terse) (hverbose : m.verbose = n.verbose) :
    m = n := by
  cases m
  cases n
  simp_all [terse]

/-! Lexemes that are no expressions. -/

theorem plain_push (m : Machine) (v : Number) : (m.push v).Plain (m.terse.push v) := by
  rw [push, push, stack_terse, Stack.roomEvents]
  split
  · exact Run.plain_printing rfl _
  · exact Run.plain_idle _

theorem plain_pushLiteral (m : Machine) (base : Nat) (text : Text) :
    (m.pushLiteral base text).Plain (m.terse.pushLiteral base text) := by
  rw [pushLiteral, pushLiteral]
  cases literal? base text with
  | some n => exact m.plain_push _
  | none => exact Run.plain_failing m _

theorem plain_applyOperator (m : Machine) (text : Text) :
    (m.applyOperator text).Plain (m.terse.applyOperator text) := by
  have hput (n : Machine) (left right : Int) :
      (n.putBack left right).Plain (n.terse.putBack left right) :=
    (n.plain_push _).andThen (plain_push _ _)
  by_cases hshort : m.stack.isShort
  · rw [applyOperator_of_isShort hshort, applyOperator_of_isShort (m := m.terse) hshort]
    exact Run.plain_printing rfl m
  · rw [applyOperator, applyOperator, stack_terse, if_neg hshort, if_neg hshort]
    simp only [pop_terse]
    cases Operator.ofText? text with
    | none => exact Run.plain_failing _ _
    | some o =>
        simp only
        cases o.apply m.stack.pop.top m.stack.top with
        | ok result => exact plain_push _ _
        | error failure =>
            cases failure with
            | complaint cause => exact (hput _ _ _).andThen (Run.plain_failing _ _)
            | _ => exact Run.plain_failing _ _

theorem plain_obey (m : Machine) (text : Text) : (m.obey text).Plain (m.terse.obey text) := by
  unfold obey
  split
  · rw [stack_terse, Stack.listingEvent]
    split <;> exact Run.plain_printing rfl m
  · rw [pushRandom, pushRandom, stack_terse, Stack.roomEvents]
    split
    · exact Run.plain_printing rfl m
    · exact plain_push _ _
  · rw [stack_terse, Stack.topEvent]
    split <;> exact Run.plain_printing rfl m
  · exact Run.plain_failing m _

/-- A lexeme that is no expression announces nothing, and does the same whether or not conversions are
printed. -/
theorem plain_act (m : Machine) (x : Lexeme) : (m.act x).Plain (m.terse.act x) := by
  rw [act, act, feedWith, feedWith, comment_terse]
  split
  · exact Run.plain_idle _
  · split
    · exact Run.plain_idle _
    · split
      · exact m.plain_pushLiteral 8 x.text
      · exact m.plain_pushLiteral 10 x.text
      · exact m.plain_applyOperator x.text
      · exact m.plain_obey x.text
      · exact Run.plain_failing m _
      · exact Run.plain_idle m
      · exact Run.plain_idle m

theorem plain_loop_act (m : Machine) (xs : List Lexeme) :
    (loop act m [] xs).Plain (loop act m.terse [] xs) := by
  induction xs generalizing m with
  | nil => exact Run.plain_idle m
  | cons x xs ih =>
      have hfirst := (m.plain_act x).contain
      rw [loop_cons, loop_cons]
      exact hfirst.andThen (ih _)

/-! Lines. -/

theorem execute_terse (m : Machine) (i : Instruction) : m.terse.execute i = (m.execute i).terse := by
  cases i with
  | act x => exact (m.plain_act x).terse
  | announce expression =>
      rw [execute, execute, comment_terse]
      split
      · rfl
      · cases hverbose : m.verbose <;>
          simp [conversionEvents, hverbose, Machine.terse, Run.terse, Run.printing,
            Event.isConversion]

theorem loop_execute_terse (m : Machine) (program : List Instruction) :
    loop execute m.terse [] program = (loop execute m [] program).terse := by
  induction program generalizing m with
  | nil => rfl
  | cons i program ih =>
      rw [loop_cons, loop_cons, execute_terse, ← Run.terse_contain, Run.terse_andThen]
      exact (ih _).symm

/-- A line does the same where conversions are not printed, without the announcements. -/
theorem process_terse (m : Machine) (line : Text) (comments : Bool) :
    m.terse.process line comments = (m.process line comments).terse := by
  rw [process_eq_loop_execute, process_eq_loop_execute, loop_execute_terse]

/-- A converted expression announces nothing while it runs. -/
theorem plain_process_convert (m : Machine) (expression : Text) :
    (m.process (convert expression) false).Plain (m.terse.process (convert expression) false) := by
  rw [process, process, run, run, runWith_convert, runWith_convert]
  exact m.plain_loop_act _

end Machine

namespace Turn

/-- The machine converts the lexeme of the turn, and runs what it is converted to. -/
def Converts (t : Turn) : Prop := t.machine.comment = false ∧ t.lexeme.kind = .expression

instance (t : Turn) : Decidable t.Converts := inferInstanceAs (Decidable (_ ∧ _))

/-- The line that announces the conversion of a turn, if there is one. -/
def announcement (t : Turn) : Text :=
  if t.Converts then Event.line (t.lexeme.text ++ " -> ".toList ++ convert t.lexeme.text) else []

/-- What is printed on standard error in a turn. -/
def err (t : Turn) : Text := (t.machine.feed t.lexeme).contain.err

end Turn

namespace Machine

variable {m : Machine}

theorem contain_feed (m : Machine) (x : Lexeme) :
    (m.feed x).contain = loop execute m [] x.instructions :=
  contain_feedWith_evaluateWith m x

theorem contain_feed_terse (m : Machine) (x : Lexeme) :
    (m.terse.feed x).contain = (m.feed x).contain.terse := by
  rw [contain_feed, contain_feed, loop_execute_terse]

theorem verbose_feed (m : Machine) (x : Lexeme) : (m.feed x).machine.verbose = m.verbose := by
  rw [← Run.machine_contain, contain_feed]
  refine loop_induction (P := fun next => next.verbose = m.verbose) ?_ rfl
  intro i _ next hnext
  cases i with
  | announce expression => rw [machine_announce, hnext]
  | act y => rw [execute, verbose_act, hnext]

theorem verbose_process (m : Machine) (line : Text) (comments : Bool) :
    (m.process line comments).machine.verbose = m.verbose := by
  rw [process, run, runWith_eq_loop]
  refine loop_induction (P := fun next => next.verbose = m.verbose) ?_ rfl
  intro x _ next hnext
  exact (next.verbose_feed x).trans hnext

/-- In a verbose machine the announcement of a turn comes first, and what else is printed on standard
error is what a terse machine prints there. -/
theorem err_of_verbose (hm : m.verbose = true) (x : Lexeme) :
    (Turn.mk m x).err = (Turn.mk m.terse x).announcement ++ (Turn.mk m.terse x).err := by
  have hacts (n : Machine) (xs : List Lexeme) :
      loop execute n [] (xs.map .act) = loop act n [] xs :=
    loop_map Instruction.act n xs
  rw [Turn.err, Turn.err, Turn.announcement, contain_feed, contain_feed]
  by_cases hx : x.kind = .expression
  · have hrest := m.plain_loop_act (lexemes false (convert x.text))
    rw [Lexeme.instructions, if_pos hx, loop_cons, loop_cons, execute_terse, execute]
    cases hcomment : m.comment with
    | true =>
        -- In a comment nothing is announced, and the lexemes of the converted form do nothing.
        have hnot : ¬ (Turn.mk m.terse x).Converts := fun h => by
          rw [Turn.Converts, comment_terse, hcomment] at h
          cases h.1
        have hidle : (Run.idle m).terse = .idle m.terse := rfl
        rw [if_pos rfl, if_neg hnot, hidle, Run.contain_idle, Run.contain_idle, Run.idle_andThen,
          Run.idle_andThen, hacts, hacts, hrest.err, List.nil_append]
    | false =>
        have hconverts : (Turn.mk m.terse x).Converts := ⟨hcomment, hx⟩
        have hsilent : (Run.printing m (m.conversionEvents x.text)).terse = .idle m.terse := by
          simp [Run.terse, conversionEvents, hm, Run.printing, Run.idle, Event.isConversion]
        rw [if_neg Bool.false_ne_true, if_pos hconverts, hsilent, Run.contain_printing,
          Run.contain_idle, Run.idle_andThen, Run.printing_andThen, hacts, hacts, hrest.err,
          conversionEvents, if_pos hm]
        rfl
  · have hnot : ¬ (Turn.mk m.terse x).Converts := fun h => hx h.2
    rw [Lexeme.instructions, if_neg hx, if_neg hnot, loop_singleton, loop_singleton, execute, execute]
    exact (m.plain_act x).contain.err.symm

/-- The announcements of a list of lexemes come each at the beginning of its own turn. -/
theorem err_turns_of_verbose (hm : m.verbose = true) (xs : List Lexeme) :
    (m.turns feed xs).flatMap Turn.err =
      (m.terse.turns feed xs).flatMap fun t => t.announcement ++ t.err := by
  induction xs generalizing m with
  | nil => rfl
  | cons x xs ih =>
      have hfailure : (m.terse.feed x).contain.failure = (m.feed x).contain.failure := by
        rw [contain_feed_terse]
        rfl
      have hmachine : (m.terse.feed x).machine = (m.feed x).machine.terse := by
        rw [← Run.machine_contain, contain_feed_terse, ← Run.machine_contain (m.feed x)]
        rfl
      cases hfirst : (m.feed x).contain.failure with
      | some failure =>
          rw [turns_cons_of_failure hfirst, turns_cons_of_failure (hfailure.trans hfirst),
            List.flatMap_singleton, List.flatMap_singleton, err_of_verbose hm]
      | none =>
          rw [turns_cons_of_not_failure hfirst, turns_cons_of_not_failure (hfailure.trans hfirst),
            List.flatMap_cons, List.flatMap_cons, err_of_verbose hm, hmachine,
            ih ((m.verbose_feed x).trans hm)]

theorem err_process (m : Machine) (line : Text) (comments : Bool) :
    (m.process line comments).err = (m.turns feed (lexemes comments line)).flatMap Turn.err := by
  have hloop : m.process line comments = loop feed m [] (lexemes comments line) :=
    runWith_eq_loop m _
  rw [hloop, Run.err, events_loop, Event.errOf, List.flatMap_assoc]
  rfl

/-- Where conversions are not printed, an expression does what its converted form does as a line. -/
theorem feed_expression (hverbose : m.verbose = false) (hcomment : m.comment = false)
    (expression : Text) :
    m.feed ⟨.expression, expression⟩ = m.process (convert expression) false := by
  have hevents : m.conversionEvents expression = [] := by simp [conversionEvents, hverbose]
  rw [feed_expression_eq_andThen hcomment, hevents]
  exact Run.idle_andThen m _

theorem process_machine_terse (m : Machine) (line : Text) (comments : Bool) :
    (m.terse.process line comments).machine = (m.process line comments).machine.terse := by
  rw [process_terse]
  rfl

theorem runs_terse (m : Machine) (comments : Bool) (lines : List Text) :
    m.terse.runs comments lines = (m.runs comments lines).map Run.terse := by
  induction lines generalizing m with
  | nil => rfl
  | cons line rest ih =>
      rw [runs, throughout_cons, throughout_cons, process_machine_terse, process_terse,
        List.map_append]
      exact congrArg _ (ih _)

theorem err_runs (m : Machine) (comments : Bool) (lines : List Text) :
    (m.runs comments lines).map Run.err =
      (m.lineTurns comments lines).map fun turns => turns.flatMap Turn.err := by
  induction lines generalizing m with
  | nil => rfl
  | cons line rest ih =>
      rw [runs, lineTurns, throughout_cons, throughout_cons, List.map_append, List.map_append]
      exact congrArg₂ _ (congrArg (fun err => [err]) (m.err_process line comments)) (ih _)

theorem err_runs_of_verbose (hm : m.verbose = true) (comments : Bool) (lines : List Text) :
    (m.runs comments lines).map Run.err =
      (m.terse.lineTurns comments lines).map fun turns =>
        turns.flatMap fun t => t.announcement ++ t.err := by
  induction lines generalizing m with
  | nil => rfl
  | cons line rest ih =>
      have herr := (m.err_process line comments).trans (err_turns_of_verbose hm _)
      have hrest := ih ((m.verbose_process line comments).trans hm)
      rw [runs, lineTurns, throughout_cons, throughout_cons, List.map_append, List.map_append,
        process_machine_terse]
      exact congrArg₂ _ (congrArg (fun err => [err]) herr) hrest

/-- Of two machines that differ only in whether they print conversions, both print the same on standard
output in every line and are in the same state after it, whether it fails or not. On standard error
the one that does prints one more line for every expression that is converted, just before anything
that comes of it, and a converted expression announces nothing while it runs. -/
theorem runs_and_announcements (hm : m.verbose = true) (comments : Bool) (lines : List Text) :
    List.Forall₂
        (fun r s : Run => r.out = s.out ∧ r.machine.stack = s.machine.stack ∧
          r.machine.comment = s.machine.comment ∧ r.machine.random = s.machine.random ∧
          r.failure = s.failure)
        (m.runs comments lines) (m.terse.runs comments lines) ∧
      (m.terse.runs comments lines).map Run.err =
          (m.terse.lineTurns comments lines).map (fun turns => turns.flatMap Turn.err) ∧
        (m.runs comments lines).map Run.err =
            (m.terse.lineTurns comments lines).map
              (fun turns => turns.flatMap fun t => t.announcement ++ t.err) ∧
          (∀ n : Machine, n.verbose = false → n.comment = false → ∀ expression,
            n.feed ⟨.expression, expression⟩ = n.process (convert expression) false) ∧
            ∀ (n : Machine) (expression : Text),
              ∀ e ∈ (n.process (convert expression) false).events, e.isConversion = false := by
  refine ⟨?_, m.terse.err_runs comments lines, err_runs_of_verbose hm comments lines,
    fun n => feed_expression,
    fun n expression => (n.plain_process_convert expression).not_isConversion⟩
  rw [runs_terse, List.forall₂_map_right_iff, List.forall₂_same]
  exact fun r _ => ⟨r.out_terse.symm, rfl, rfl, rfl, rfl⟩

/-- Lines with a division by zero in an expression, an expression in a comment, and a fault in an
expression behind which there is another. -/
def announcingLines : List Text :=
  ["1/0+2 # 3+4 # x".toList, "7 5%0 3+4".toList, "2^3".toList]

/-- Three expressions are announced, each before the complaint or the fault that comes of it. -/
theorem runs_announcingLines :
    (ofSeed 1 true).verbose = true ∧
      (((ofSeed 1 true).runs true announcingLines).map Run.err =
        ["1/0+2 -> 1 0 / 2 + \nDivide by 0.\nUnrecognised operator or operand \"x\".\n".toList,
          "5%0 -> 5 0 % \n".toList, "2^3 -> 2 3 ^ \n".toList]) ∧
        ((ofSeed 1 true).terse.lineTurns true announcingLines).map
            (fun turns => turns.flatMap fun t => t.announcement ++ t.err) =
          ["1/0+2 -> 1 0 / 2 + \nDivide by 0.\nUnrecognised operator or operand \"x\".\n".toList,
            "5%0 -> 5 0 % \n".toList, "2^3 -> 2 3 ^ \n".toList] ∧
          (ofSeed 1 true).terse.feed ⟨.expression, "5%0".toList⟩ =
            (ofSeed 1 true).terse.process "5 0 % ".toList false := by
  have herr : ((ofSeed 1 true).runs true announcingLines).map Run.err =
      ["1/0+2 -> 1 0 / 2 + \nDivide by 0.\nUnrecognised operator or operand \"x\".\n".toList,
        "5%0 -> 5 0 % \n".toList, "2^3 -> 2 3 ^ \n".toList] := by
    decide +kernel
  have hconvert : convert "5%0".toList = "5 0 % ".toList := by decide +kernel
  obtain ⟨-, -, hturns, hfeed, -⟩ := runs_and_announcements (m := ofSeed 1 true) rfl true
    announcingLines
  refine ⟨rfl, herr, hturns ▸ herr, ?_⟩
  rw [← hconvert]
  exact hfeed _ rfl rfl "5%0".toList

end Machine

end RpnCalculator
