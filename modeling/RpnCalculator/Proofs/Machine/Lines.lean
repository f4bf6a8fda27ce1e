import RpnCalculator.Machine.Line

/-!
# Lines one after another

`Machine.processLines` runs lines in order, up to the first that fails. From one line to the next a
machine keeps nothing but its state, and a line is no more than its words, so running lines is
running the words of all of them (`processLines_eq_run`): blanks only keep words apart, and where
the lines end makes no difference.
-/

namespace RpnCalculator

namespace Machine

/-- Runs lines in order. After a line that fails no other line is run. -/
def processLines (comments : Bool) (m : Machine) : List Text → Run
  | [] => .idle m
  | line :: rest =>
    (m.process line comments).andThen fun next => next.processLines comments rest

variable {comments : Bool}

@[simp] theorem processLines_nil (m : Machine) : m.processLines comments [] = .idle m := rfl

theorem processLines_cons (m : Machine) (line : Text) (rest : List Text) :
    m.processLines comments (line :: rest) =
      (m.process line comments).andThen fun next => next.processLines comments rest := rfl

/-- Running lines is running their words. -/
theorem processLines_eq_run (m : Machine) (lines : List Text) :
    m.processLines comments lines =
      m.run ((lines.flatMap Text.words).map (Lexeme.ofWord comments)) := by
  induction lines generalizing m with
  | nil => rfl
  | cons line rest ih =>
      rw [processLines_cons, List.flatMap_cons, List.map_append, run_append]
      congr 1
      funext next
      exact ih next

/-- A line is run as its words are. -/
theorem process_congr (m : Machine) {line other : Text}
    (h : Text.words line = Text.words other) :
    m.process line comments = m.process other comments := by
  rw [process, process, lexemes, lexemes, h]

/-- Blanks between two texts may be read as the end of a line, and how many they are and which
makes no difference; neither do blanks at either end. Lines with the same words in all are run in
the same way, wherever the lines end. -/
theorem process_blanks_and_processLines_congr (m : Machine) (comments : Bool) :
    (∀ as blanks bs : Text, blanks ≠ [] → (∀ c ∈ blanks, Text.isBlank c) →
      m.process (as ++ blanks ++ bs) comments =
        (m.process as comments).andThen fun next => next.process bs comments) ∧
      (∀ line blanks : Text, (∀ c ∈ blanks, Text.isBlank c) →
        m.process (blanks ++ line) comments = m.process line comments ∧
          m.process (line ++ blanks) comments = m.process line comments) ∧
        (∀ as blanks others bs : Text, blanks ≠ [] → (∀ c ∈ blanks, Text.isBlank c) →
          others ≠ [] → (∀ c ∈ others, Text.isBlank c) →
            m.process (as ++ blanks ++ bs) comments = m.process (as ++ others ++ bs) comments) ∧
          ∀ lines others : List Text, lines.flatMap Text.words = others.flatMap Text.words →
            m.processLines comments lines = m.processLines comments others := by
  refine ⟨?_, ?_, ?_, ?_⟩
  · intro as blanks bs hne hblanks
    rw [process, lexemes, Text.words_append_blanks_append hne hblanks, List.map_append, run_append]
    rfl
  · intro line blanks hblanks
    exact ⟨m.process_congr (Text.words_blanks_append hblanks line),
      m.process_congr (Text.words_append_blanks hblanks line)⟩
  · intro as blanks others bs hne hblanks hne' hblanks'
    refine m.process_congr ?_
    rw [Text.words_append_blanks_append hne hblanks, Text.words_append_blanks_append hne' hblanks']
  · intro lines others hwords
    rw [processLines_eq_run, processLines_eq_run, hwords]

/-- The line ends between the two marks of a comment, and the lines after it end between the
operands of the remainder that faults. -/
theorem process_blanks_inside_comment :
    ("\x0b\r\n".toList ≠ [] ∧ ∀ c ∈ "\x0b\r\n".toList, Text.isBlank c) ∧
      ((ofSeed 1 true).process
          ("7 2 # r".toList ++ "\x0b\r\n".toList ++ "% # 3+4 0 %".toList) true =
        ((ofSeed 1 true).process "7 2 # r".toList true).andThen fun next =>
          next.process "% # 3+4 0 %".toList true) ∧
        (ofSeed 1 true).processLines true
            ["7 2 # r".toList, [], "% # 3+4".toList, "0 ".toList, "% d".toList] =
          (ofSeed 1 true).processLines true ["7 2 # r % # 3+4 0 % d".toList] ∧
          ((ofSeed 1 true).process "7 2 # r % # 3+4 0 %".toList true).failure =
            some .arithmeticFault ∧
            ((ofSeed 1 true).process "7 2 # r % # 3+4 0 %".toList true).machine.stack.toList =
              [7, 2] := by
  have hblanks : "\x0b\r\n".toList ≠ [] ∧ ∀ c ∈ "\x0b\r\n".toList, Text.isBlank c :=
    ⟨by decide, List.all_eq_true.1 (by decide)⟩
  obtain ⟨hbetween, -, -, hlines⟩ := process_blanks_and_processLines_congr (ofSeed 1 true) true
  exact ⟨hblanks, hbetween _ _ _ hblanks.1 hblanks.2, hlines _ _ (by decide +kernel),
    by decide +kernel, by decide +kernel⟩

end Machine

end RpnCalculator
