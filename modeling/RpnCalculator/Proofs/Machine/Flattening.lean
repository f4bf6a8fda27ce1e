import RpnCalculator.Proofs.Expression.Item
import RpnCalculator.Proofs.Machine.Act
import RpnCalculator.Proofs.Machine.Loop

/-!
# Lines without expressions

A line is flattened by putting in the place of every expression the lexemes of its converted form.
Running a line is then one loop over the flattened line, in which no expression is left. Where
conversions are printed, the loop runs instructions, of which one announces the conversion and the
others are lexemes.

Announcements change nothing but what is printed on standard error (`loop_execute_agrees`), and where
conversions are not printed they change nothing at all.

The recursion of the machine is opened once, in `contain_feedWith_evaluateWith`: what an expression
*inside* a converted expression would do is a parameter there, and since there is none it does not
matter. Comment mode stays what it is while a converted expression runs, so in comment mode both sides
do nothing.
-/

namespace RpnCalculator

/-- A step in the running of a flattened line. -/
inductive Instruction where
  /-- Prints the conversion of an expression, where conversions are printed. -/
  | announce (expression : Text)
  | act (x : Lexeme)

/-- The lexeme that an instruction acts upon, if it does. -/
def Instruction.lexeme? : Instruction → Option Lexeme
  | .announce _ => none
  | .act x => some x

namespace Lexeme

/-- The lexemes that stand for a lexeme in a flattened line. -/
def flatten (x : Lexeme) : List Lexeme :=
  if x.kind = .expression then lexemes false (convert x.text) else [x]

/-- The instructions that stand for a lexeme in a flattened line. -/
def instructions (x : Lexeme) : List Instruction :=
  if x.kind = .expression then
    .announce x.text :: (lexemes false (convert x.text)).map .act
  else [.act x]

theorem filterMap_lexeme?_instructions (x : Lexeme) :
    x.instructions.filterMap Instruction.lexeme? = x.flatten := by
  have hacts (xs : List Lexeme) :
      (xs.map Instruction.act).filterMap Instruction.lexeme? = xs := by
    rw [List.filterMap_map]
    exact List.filterMap_some
  by_cases hx : x.kind = .expression
  · rw [instructions, flatten, if_pos hx, if_pos hx, List.filterMap_cons_none rfl, hacts]
  · rw [instructions, flatten, if_neg hx, if_neg hx]
    exact hacts [x]

end Lexeme

/-- The lexemes of a flattened line. -/
def flatLexemes (comments : Bool) (line : Text) : List Lexeme :=
  (lexemes comments line).flatMap Lexeme.flatten

/-- The instructions of a flattened line. -/
def instructions (comments : Bool) (line : Text) : List Instruction :=
  (lexemes comments line).flatMap Lexeme.instructions

/-- Apart from the announcements, the instructions of a line are its flattened lexemes. -/
theorem filterMap_lexeme?_instructions (comments : Bool) (line : Text) :
    (instructions comments line).filterMap Instruction.lexeme? = flatLexemes comments line := by
  rw [instructions, flatLexemes, List.filterMap_flatMap]
  simp only [Lexeme.filterMap_lexeme?_instructions]

namespace Machine

/-- Carries out one instruction. -/
def execute (m : Machine) : Instruction → Run
  | .announce expression =>
    if m.comment then .idle m else .printing m (m.conversionEvents expression)
  | .act x => m.act x

/-- Converts an expression and runs the converted form, where `inner` says what an expression in the
converted form would do. -/
def evaluateWith (inner : Machine → Text → Run) (m : Machine) (expression : Text) : Run :=
  (Run.printing m (m.conversionEvents expression)).andThen fun next =>
    runWith inner next (lexemes false (convert expression))

theorem evaluate_succ (depth : Nat) : evaluate (depth + 1) = evaluateWith (evaluate depth) := rfl

variable {evaluate inner : Machine → Text → Run} {m : Machine}

/-- In comment mode a loop over lexemes that are no comment marks does nothing. -/
theorem loop_act_of_comment {xs : List Lexeme} (hxs : ∀ x ∈ xs, x.kind ≠ .comment)
    (hm : m.comment) : loop act m [] xs = .idle m := by
  induction xs with
  | nil => rfl
  | cons x xs ih =>
      rw [loop_cons, act_of_comment (hxs x List.mem_cons_self) hm, Run.contain_idle,
        Run.idle_andThen]
      exact ih fun y hy => hxs y (List.mem_cons_of_mem _ hy)

theorem runWith_convert (m : Machine) (expression : Text) :
    runWith inner m (lexemes false (convert expression)) =
      loop act m [] (lexemes false (convert expression)) := by
  rw [runWith_eq_loop]
  exact loop_congr (fun x hx next => feedWith_eq_act (kind_of_mem_lexemes_convert hx).1 next) m

/-- An expression does what its converted form does as a line, after its conversion has been
printed. -/
theorem feed_expression_eq_andThen (hcomment : m.comment = false) (expression : Text) :
    m.feed ⟨.expression, expression⟩ =
      (Run.printing m (m.conversionEvents expression)).andThen fun next =>
        next.process (convert expression) false := by
  rw [feed, feedWith_expression hcomment, nestingLimit, Machine.evaluate]
  congr 1
  funext next
  rw [process, run, runWith_convert, runWith_convert]

/-- One lexeme does the same as the instructions for it, whatever `inner` is. -/
theorem contain_feedWith_evaluateWith (m : Machine) (x : Lexeme) :
    (feedWith (evaluateWith inner) m x).contain = loop execute m [] x.instructions := by
  cases x with
  | mk kind text =>
  by_cases hx : kind = .expression
  · subst hx
    have hmarks : ∀ y ∈ lexemes false (convert text), y.kind ≠ .comment :=
      fun y hy => (kind_of_mem_lexemes_convert hy).2
    have hacts (next : Machine) :
        loop execute next [] ((lexemes false (convert text)).map .act) =
          loop act next [] (lexemes false (convert text)) :=
      loop_map Instruction.act next _
    rw [Lexeme.instructions, if_pos rfl, loop_cons, execute]
    cases hm : m.comment with
    | true =>
        rw [feedWith_of_comment (by simp) hm, if_pos rfl, Run.contain_idle, Run.idle_andThen,
          hacts, loop_act_of_comment hmarks hm]
    | false =>
        rw [feedWith_expression hm, if_neg Bool.false_ne_true, evaluateWith,
          Run.contain_printing_andThen, Run.contain_printing]
        refine Run.andThen_congr ?_
        simp only [runWith_convert, contain_loop, hacts]
  · rw [Lexeme.instructions, if_neg hx, loop_singleton, execute, feedWith_eq_act hx]

/-- Running lexemes is one loop over the instructions for them, whatever `inner` is. -/
theorem runWith_evaluateWith (m : Machine) (xs : List Lexeme) :
    runWith (evaluateWith inner) m xs = loop execute m [] (xs.flatMap Lexeme.instructions) := by
  induction xs generalizing m with
  | nil => rfl
  | cons x xs ih =>
      rw [runWith_cons, contain_feedWith_evaluateWith, List.flatMap_cons, loop_append]
      congr 1
      funext next
      exact ih next

/-- Running a line is one loop over the instructions of the flattened line. -/
theorem process_eq_loop_execute (m : Machine) (line : Text) (comments : Bool) :
    m.process line comments = loop execute m [] (instructions comments line) := by
  rw [process, run, nestingLimit, evaluate_succ]
  exact runWith_evaluateWith m (lexemes comments line)

end Machine

/-! Announcements. -/

namespace Run

/-- Two runs are the same but for what they print on standard error. -/
structure Agrees (r s : Run) : Prop where
  machine : r.machine = s.machine
  out : r.out = s.out
  failure : r.failure = s.failure

variable {r s : Run}

theorem Agrees.refl (r : Run) : r.Agrees r := ⟨rfl, rfl, rfl⟩

theorem Agrees.symm (h : r.Agrees s) : s.Agrees r := ⟨h.machine.symm, h.out.symm, h.failure.symm⟩

theorem Agrees.andThen {next other : Machine → Run}
    (h : (next r.machine).Agrees (other r.machine)) :
    (r.andThen next).Agrees (r.andThen other) := by
  cases hfailure : r.failure with
  | some failure =>
      rw [andThen_of_failure hfailure, andThen_of_failure hfailure]
      exact .refl r
  | none =>
      rw [andThen_of_not_failure hfailure, andThen_of_not_failure hfailure]
      refine ⟨h.machine, ?_, h.failure⟩
      simpa [Run.out] using h.out

/-- A run with no part in standard output may come first. -/
theorem Agrees.quiet_andThen {next : Machine → Run} (hfailure : r.failure = none)
    (hout : r.out = []) (h : (next r.machine).Agrees s) : (r.andThen next).Agrees s := by
  rw [andThen_of_not_failure hfailure]
  refine ⟨h.machine, ?_, h.failure⟩
  rw [Run.out] at hout
  rw [← h.out, Run.out, Run.out, Event.outOf_append, hout, List.nil_append]

end Run

namespace Machine

variable {m : Machine}

theorem out_conversionEvents (m : Machine) (expression : Text) :
    Event.outOf (m.conversionEvents expression) = [] := by
  rw [conversionEvents]
  split <;> rfl

theorem execute_announce (m : Machine) (expression : Text) :
    ∃ events, m.execute (.announce expression) = .printing m events ∧ Event.outOf events = [] := by
  rw [execute]
  split
  · exact ⟨[], rfl, rfl⟩
  · exact ⟨_, rfl, m.out_conversionEvents expression⟩

theorem machine_announce (m : Machine) (expression : Text) :
    (m.execute (.announce expression)).machine = m := by
  obtain ⟨events, hannounce, -⟩ := m.execute_announce expression
  rw [hannounce]
  rfl

/-- Without the announcements a loop does the same, but for what it prints on standard error. -/
theorem loop_execute_agrees (m : Machine) (program : List Instruction) :
    (loop execute m [] program).Agrees
      (loop act m [] (program.filterMap Instruction.lexeme?)) := by
  induction program generalizing m with
  | nil => exact .refl _
  | cons i program ih =>
      rw [loop_cons]
      cases i with
      | announce expression =>
          obtain ⟨events, hannounce, hout⟩ := m.execute_announce expression
          rw [hannounce, Run.contain_printing, List.filterMap_cons_none rfl]
          exact .quiet_andThen rfl hout (ih m)
      | act x =>
          rw [execute, List.filterMap_cons_some (f := Instruction.lexeme?) rfl, loop_cons]
          exact .andThen (ih _)

/-- Where conversions are not printed, a loop does the same without the announcements. -/
theorem loop_execute_of_not_verbose (hm : m.verbose = false) (program : List Instruction) :
    loop execute m [] program = loop act m [] (program.filterMap Instruction.lexeme?) := by
  induction program generalizing m with
  | nil => rfl
  | cons i program ih =>
      rw [loop_cons]
      cases i with
      | announce expression =>
          have hannounce : m.execute (.announce expression) = .idle m := by
            simp [execute, conversionEvents, hm, Run.printing, Run.idle]
          rw [hannounce, Run.contain_idle, Run.idle_andThen, List.filterMap_cons_none rfl]
          exact ih hm
      | act x =>
          have hnext : (m.act x).contain.machine.verbose = false := by
            rw [Run.machine_contain, verbose_act, hm]
          rw [execute, List.filterMap_cons_some (f := Instruction.lexeme?) rfl, loop_cons]
          exact Run.andThen_congr (ih hnext)

end Machine

/-- Every lexeme of a flattened line is one of some line. -/
theorem exists_mem_lexemes_of_mem_flatLexemes {comments : Bool} {line : Text} {x : Lexeme}
    (h : x ∈ flatLexemes comments line) : ∃ comments line, x ∈ lexemes comments line := by
  obtain ⟨y, hy, hx⟩ := List.mem_flatMap.1 h
  unfold Lexeme.flatten at hx
  split at hx
  · exact ⟨false, convert y.text, hx⟩
  · rw [List.mem_singleton.1 hx]
    exact ⟨comments, line, hy⟩

theorem proper_of_mem_flatLexemes {comments : Bool} {line : Text} {x : Lexeme}
    (h : x ∈ flatLexemes comments line) : x.Proper := by
  obtain ⟨_, _, hx⟩ := exists_mem_lexemes_of_mem_flatLexemes h
  exact Lexeme.proper_of_mem_lexemes hx

theorem kind_of_mem_flatLexemes {comments : Bool} {line : Text} {x : Lexeme}
    (h : x ∈ flatLexemes comments line) : x.kind ≠ .expression := by
  obtain ⟨y, _, hx⟩ := List.mem_flatMap.1 h
  unfold Lexeme.flatten at hx
  split at hx
  · exact (kind_of_mem_lexemes_convert hx).1
  · rename_i hy
    rwa [List.mem_singleton.1 hx]

namespace Machine

/-- Running a line is one loop over the lexemes of the flattened line, but for what is printed on
standard error. -/
theorem process_agrees (m : Machine) (line : Text) (comments : Bool) :
    (m.process line comments).Agrees (loop act m [] (flatLexemes comments line)) := by
  rw [process_eq_loop_execute, ← filterMap_lexeme?_instructions]
  exact loop_execute_agrees m (instructions comments line)

theorem process_eq_loop_act {m : Machine} (hm : m.verbose = false) (line : Text) (comments : Bool) :
    m.process line comments = loop act m [] (flatLexemes comments line) := by
  rw [process_eq_loop_execute, ← filterMap_lexeme?_instructions]
  exact loop_execute_of_not_verbose hm (instructions comments line)

/-- Where conversions are not printed, running a line is one loop over the lexemes of the flattened
line. No expression is among them, so it never comes to an expression inside a converted one, and it
does not matter what would be done with it. A complaint ends the lexeme that it is about and no
other, also inside a converted expression. -/
theorem process_eq_loop_flatLexemes {m : Machine} (hm : m.verbose = false) (line : Text)
    (comments : Bool) :
    m.process line comments = loop act m [] (flatLexemes comments line) ∧
      (∀ x ∈ flatLexemes comments line, x.kind ≠ .expression) ∧
        (∀ inner : Machine → Text → Run,
          runWith (evaluateWith inner) m (lexemes comments line) = m.process line comments) ∧
          (m.process line comments).failure ≠ some .nesting ∧
            ∀ before x after cause, flatLexemes comments line = before ++ x :: after →
              (loop act m [] before).failure = none →
                ((loop act m [] before).machine.act x).failure = some (.complaint cause) →
                  m.process line comments =
                    loop act ((loop act m [] before).machine.act x).machine
                      ((loop act m [] before).events ++
                        ((loop act m [] before).machine.act x).events ++ [.complaint cause])
                      after := by
  have hprocess := process_eq_loop_act hm line comments
  refine ⟨hprocess, fun x => kind_of_mem_flatLexemes, ?_, ?_, ?_⟩
  · intro inner
    rw [runWith_evaluateWith]
    exact (process_eq_loop_execute m line comments).symm
  · intro hnesting
    rw [hprocess] at hnesting
    obtain ⟨before, x, after, hsplit, _, hx⟩ := exists_of_failure_loop hnesting
    have hkind := kind_of_mem_flatLexemes (hsplit ▸ List.mem_append_right before List.mem_cons_self)
    exact failure_act_ne_nesting hkind _ hx
  · intro before x after cause hsplit hbefore hx
    rw [hprocess, hsplit]
    exact loop_of_complaint hbefore hx after

/-- The complaint about the division ends neither the expression nor the line. -/
theorem process_division_by_zero :
    (ofSeed 1 false).verbose = false ∧
      (ofSeed 1 false).process "5/0+1".toList true =
        loop act (ofSeed 1 false) [] (flatLexemes true "5/0+1".toList) ∧
        ((ofSeed 1 false).process "5/0+1".toList true).machine.stack.toList = [5, 1] ∧
          ((ofSeed 1 false).process "5/0+1".toList true).events =
            [.complaint .divisionByZero] :=
  ⟨rfl, (process_eq_loop_flatLexemes rfl _ _).1, by decide +kernel, by decide +kernel⟩

end Machine

end RpnCalculator
