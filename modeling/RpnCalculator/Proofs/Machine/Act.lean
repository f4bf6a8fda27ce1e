import RpnCalculator.Proofs.Lexeme
import RpnCalculator.Proofs.Machine.Step

/-!
# What a lexeme of a line does

`Machine.act` is what the machine does with a lexeme that is no expression. A proper lexeme can end in
a complaint, or it can end the run in one of two other failures, and `Halts` says exactly when: it is
the remainder of a division by zero, or a numeral that is too long to be read.
-/

namespace RpnCalculator

namespace Machine

/-- Acts upon a lexeme that is no expression. -/
def act (m : Machine) (x : Lexeme) : Run :=
  feedWith (fun next _ => .failing next .nesting) m x

variable {evaluate : Machine → Text → Run} {m : Machine}

theorem feedWith_eq_act {x : Lexeme} (hx : x.kind ≠ .expression) (m : Machine) :
    feedWith evaluate m x = m.act x := by
  cases x with
  | mk kind text =>
      cases kind with
      | expression => exact absurd rfl hx
      | _ => rfl

theorem act_of_comment {x : Lexeme} (hx : x.kind ≠ .comment) (hm : m.comment) :
    m.act x = .idle m :=
  feedWith_of_comment hx hm

theorem act_comment {x : Lexeme} (hx : x.kind = .comment) (m : Machine) :
    m.act x = .idle m.toggleComment := by
  cases x with
  | mk kind text =>
      obtain rfl : kind = .comment := hx
      rfl

/-- The word of a numeral is kept as it is. -/
theorem feedWith_numeral (hm : m.comment = false) {a : Numeral}
    (ha : a.lexeme.kind ≠ .malformed) (hlong : ¬ a.lexeme.TooLong)
    (hroom : m.stack.size < Stack.capacity) :
    feedWith evaluate m a.lexeme = .idle (m.withValues (a.value :: m.stack.values)) := by
  have hfull : ¬ m.stack.isFull := by
    rw [Stack.isFull_iff]
    omega
  rw [a.feedWith_lexeme hm ha hlong, push_of_not_isFull hfull, Number.saturate_integer, Numeral.value,
    Word.clamp_clamp]

/-- Only a comment mark changes comment mode, and nothing changes whether conversions are
printed. -/
theorem settings_act {x : Lexeme} (hx : x.kind ≠ .comment) (m : Machine) :
    (m.act x).machine.settings = m.settings := by
  cases x with
  | mk kind text =>
  cases hm : m.comment with
  | true => rw [act_of_comment hx hm, Run.machine_idle]
  | false =>
      rw [act]
      cases kind with
      | octal => rw [feedWith_octal hm, settings_pushLiteral]
      | malformed => rw [feedWith_malformed hm, Run.machine_idle]
      | decimal => rw [feedWith_decimal hm, settings_pushLiteral]
      | operator => rw [feedWith_operator hm, settings_applyOperator]
      | comment => exact absurd rfl hx
      | character => rw [feedWith_character hm, settings_obey]
      | expression => rw [feedWith_expression hm, Run.failing]

theorem verbose_act (m : Machine) (x : Lexeme) : (m.act x).machine.verbose = m.verbose := by
  by_cases hx : x.kind = .comment
  · rw [act_comment hx]
    rfl
  · exact congrArg Prod.snd (settings_act hx m)

theorem failure_applyOperator_ne_nesting (m : Machine) (text : Text) :
    (m.applyOperator text).failure ≠ some .nesting := by
  rw [applyOperator]
  split
  · simp [Run.printing]
  · simp only
    split
    · simp [Run.failing]
    · split
      · simp [push, Run.printing]
      · simp [putBack, push, Run.printing, Run.andThen, Run.failing]
      · rename_i failure _ happly
        rcases Operator.eq_of_apply_eq_error happly with rfl | ⟨cause, rfl⟩
        · simp [Run.failing]
        · simp [Run.failing]

/-- Without an expression there is nothing to convert inside a conversion. -/
theorem failure_act_ne_nesting {x : Lexeme} (hx : x.kind ≠ .expression) (m : Machine) :
    (m.act x).failure ≠ some .nesting := by
  have hliteral (base : Nat) : (m.pushLiteral base x.text).failure ≠ some .nesting := by
    rw [pushLiteral]
    split
    · simp [push, Run.printing]
    · simp [Run.failing]
  have hobey : (m.obey x.text).failure ≠ some .nesting := by
    unfold obey pushRandom
    split
    · simp [Run.printing]
    · split
      · simp [Run.printing]
      · simp [push, Run.printing]
    · simp [Run.printing]
    · simp [Run.failing]
  rw [act, feedWith]
  split
  · simp
  · split
    · simp
    · split
      · exact hliteral 8
      · exact hliteral 10
      · exact m.failure_applyOperator_ne_nesting x.text
      · exact hobey
      · exact absurd ‹_› hx
      · simp
      · simp

/-! How a lexeme can end. -/

/-- A lexeme is the remainder of a division by zero: outside comment mode it is the operator `%`, the
value on top is zero, and the one below is not. -/
def Faults (m : Machine) (x : Lexeme) : Prop :=
  m.comment = false ∧ x = ⟨.operator, [Operator.mod.symbol]⟩ ∧
    ∃ left values, m.stack.values = 0 :: left :: values ∧ left ≠ 0

/-- A lexeme overruns what the machine can read: outside comment mode it is a decimal numeral with too
many digits. -/
def Overruns (m : Machine) (x : Lexeme) : Prop := m.comment = false ∧ x.TooLong

/-- A lexeme ends the run in a failure and leaves the machine `next`. A fault leaves it without the two
operands of the lexeme, and a numeral that is too long leaves it as it is. -/
inductive Halts (m : Machine) (x : Lexeme) : Failure → Machine → Prop
  | fault (h : Faults m x) : Halts m x .arithmeticFault m.pop.pop
  | overrun (h : Overruns m x) : Halts m x (.invalidNumeral 10 x.text) m

/-- The ways in which a lexeme can end whose complaints are contained. -/
inductive Outcome (m : Machine) (x : Lexeme) : Run → Prop
  /-- Nothing is printed on standard error. -/
  | quiet {r : Run} (hfailure : r.failure = none) (herr : r.err = []) : Outcome m x r
  /-- One line is printed on standard error, and that is all that happens. -/
  | report {e : Event} {text : Text} (hout : e.out = []) (herr : e.err = Event.line text)
      (htext : '\n' ∉ text) : Outcome m x (.printing m [e])
  /-- The run ends with nothing printed. -/
  | halt {failure : Failure} {next : Machine} (h : Halts m x failure next) :
    Outcome m x (.failing next failure)

variable {x : Lexeme}

/-- What a lexeme does that ends the run. -/
theorem act_of_halts (hx : x.Proper) {failure : Failure} {next : Machine}
    (h : Halts m x failure next) : m.act x = .failing next failure := by
  cases h with
  | fault h =>
      obtain ⟨hcomment, rfl, left, values, hvalues, hleft⟩ := h
      have hfault : Operator.mod.apply left 0 = .error .arithmeticFault :=
        Operator.apply_eq_arithmeticFault_iff.2 ⟨rfl, hleft, rfl⟩
      rw [act, feedWith_operator hcomment, applyOperator_of_fault hvalues hfault,
        pop_pop_of_values hvalues]
  | overrun h =>
      obtain ⟨hcomment, hlong⟩ := h
      cases hx with
      | numeral a => exact a.feedWith_of_tooLong hcomment hlong
      | _ => cases hlong.1

/-- Where a lexeme fails with its complaints contained, it ends the run. -/
theorem Outcome.of_failure {r : Run} {failure : Failure} (h : Outcome m x r)
    (hfailure : r.failure = some failure) : ∃ next, Halts m x failure next := by
  cases h with
  | quiet hnone =>
      rw [hnone] at hfailure
      cases hfailure
  | report => cases hfailure
  | halt hhalts =>
      obtain rfl := Option.some.inj hfailure
      exact ⟨_, hhalts⟩

theorem outcome_idle (next : Machine) : Outcome m x (.idle next) := .quiet rfl rfl

theorem outcome_overflow : Outcome m x (.printing m [.overflow]) :=
  .report rfl rfl (by decide)

theorem newline_not_mem_decimal (n : Int) : '\n' ∉ Text.decimal n := by
  intro h
  rcases Text.eq_minus_or_isDigit_of_mem_decimal h with h | h <;> exact absurd h (by decide)

theorem outcome_complaint {cause : Complaint} (h : '\n' ∉ cause.message) :
    Outcome m x (Run.failing m (.complaint cause)).contain :=
  .report (e := .complaint cause) rfl rfl h

theorem outcome_push (v : Number) : Outcome m x (m.push v).contain := by
  by_cases hfull : m.stack.isFull
  · rw [push_of_isFull hfull]
    exact outcome_overflow
  · rw [push_of_not_isFull hfull]
    exact outcome_idle _

theorem outcome_pushRandom : Outcome m x m.pushRandom.contain := by
  by_cases hfull : m.stack.isFull
  · rw [pushRandom_of_isFull hfull]
    exact outcome_overflow
  · rw [pushRandom_of_not_isFull hfull]
    exact outcome_idle _

theorem newline_not_mem_message_of_apply {o : Operator} {left right : Int} {cause : Complaint}
    (h : o.apply left right = .error (.complaint cause)) : '\n' ∉ cause.message := by
  rcases Operator.apply_eq_complaint_iff.1 h with ⟨_, _, rfl⟩ | ⟨_, _, rfl⟩ | ⟨_, _, rfl⟩
  · decide
  · decide
  · decide

theorem outcome_applyOperator (hm : m.stack.Valid) (hcomment : m.comment = false) (o : Operator) :
    Outcome m ⟨.operator, [o.symbol]⟩ (m.applyOperator [o.symbol]).contain := by
  by_cases hshort : m.stack.isShort
  · rw [applyOperator_of_isShort hshort]
    exact .report (e := .underflow) rfl rfl (by decide)
  · obtain ⟨right, left, values, hvalues⟩ := exists_values_of_not_isShort hshort
    have hroom : values.length < Stack.capacity := by
      have hsize := hm.1
      rw [Stack.size, hvalues, List.length_cons, List.length_cons] at hsize
      omega
    cases happly : o.apply left right with
    | ok result =>
        rw [applyOperator_of_ok hvalues hroom happly]
        exact outcome_idle _
    | error failure =>
        rcases Operator.eq_of_apply_eq_error happly with rfl | ⟨cause, rfl⟩
        · obtain ⟨rfl, hleft, rfl⟩ := Operator.apply_eq_arithmeticFault_iff.1 happly
          rw [applyOperator_of_fault hvalues happly, ← pop_pop_of_values hvalues]
          exact .halt (.fault ⟨hcomment, rfl, left, values, hvalues, hleft⟩)
        · rw [applyOperator_of_complaint hm hvalues happly]
          exact outcome_complaint (newline_not_mem_message_of_apply happly)

theorem outcome_obey {c : Char} (hblank : ¬ Text.isBlank c) :
    Outcome m x (m.obey [c]).contain := by
  have hnewline : '\n' ∉ (Complaint.unrecognised [c]).message := by
    intro h
    rcases List.mem_append.1 h with h | h
    · rcases List.mem_append.1 h with h | h
      · exact absurd h (by decide)
      · exact hblank (List.mem_singleton.1 h ▸ rfl)
    · exact absurd h (by decide)
  unfold obey
  split
  · rw [Stack.listingEvent]
    split
    · exact .report (e := .emptyListing) rfl rfl (newline_not_mem_decimal Word.lowest)
    · exact .quiet rfl rfl
  · exact outcome_pushRandom
  · rw [Stack.topEvent]
    split
    · exact .report (e := .emptyTop) rfl rfl (by decide)
    · exact .quiet rfl rfl
  · exact outcome_complaint hnewline

theorem outcome_numeral (hcomment : m.comment = false) (a : Numeral) :
    Outcome m a.lexeme (m.act a.lexeme).contain := by
  by_cases ha : a.lexeme.kind = .malformed
  · rw [act, a.feedWith_of_malformed hcomment ha]
    exact outcome_idle m
  · by_cases hlong : a.lexeme.TooLong
    · rw [act, a.feedWith_of_tooLong hcomment hlong]
      exact .halt (.overrun ⟨hcomment, hlong⟩)
    · rw [act, a.feedWith_lexeme hcomment ha hlong]
      exact outcome_push _

/-- Every lexeme of a line that is no expression ends in one of these ways. -/
theorem outcome_act (hm : m.stack.Valid) (hx : x.Proper) (hkind : x.kind ≠ .expression) :
    Outcome m x (m.act x).contain := by
  cases hcomment : m.comment with
  | true =>
      by_cases hmark : x.kind = .comment
      · rw [act_comment hmark]
        exact outcome_idle _
      · rw [act_of_comment hmark hcomment]
        exact outcome_idle m
  | false =>
      cases hx with
      | numeral a => exact outcome_numeral hcomment a
      | operator o =>
          rw [act, feedWith_operator hcomment]
          exact outcome_applyOperator hm hcomment o
      | comment => exact outcome_idle _
      | character hblank =>
          rw [act, feedWith_character hcomment]
          exact outcome_obey hblank
      | expression text => exact absurd rfl hkind

end Machine

end RpnCalculator
