import RpnCalculator.Proofs.Machine.Containment
import RpnCalculator.Proofs.Machine.Lines

/-!
# Comment mode

A word turns comment mode over if it is the comment mark, and leaves it alone otherwise
(`comment_feed`): in a converted expression the mark is a character like any other. So comment mode
tells whether the marks run so far are even or odd in number (`comment_run`).

What stands in a comment has no part in a run. `Machine.Redacts` relates the words of a run to the
words that are left when some of those met in comment mode have been deleted and others put in the
place of some, and both make the same run (`run_of_redacts`).
-/

namespace RpnCalculator

theorem Kind.ofWord_eq_comment_iff {comments : Bool} {word : Text} :
    Kind.ofWord comments word = .comment ↔ comments = true ∧ word = ['#'] := by
  constructor
  · fun_cases Kind.ofWord comments word with
    | case5 _ _ _ _ hmark =>
        intro _
        simpa using hmark
    | _ =>
        intro h
        cases h
  · rintro ⟨rfl, rfl⟩
    decide

namespace Lexeme

/-- What stands for a lexeme in a flattened line has a comment mark only if the lexeme is one. -/
theorem kind_of_act_mem_instructions {x y : Lexeme} (hx : x.kind ≠ .comment)
    (h : .act y ∈ x.instructions) : y.kind ≠ .comment := by
  rw [instructions] at h
  split at h
  · rcases List.mem_cons.1 h with h | h
    · cases h
    · obtain ⟨z, hz, hzy⟩ := List.mem_map.1 h
      obtain rfl := Instruction.act.inj hzy
      exact (kind_of_mem_lexemes_convert hz).2
  · obtain rfl := Instruction.act.inj (List.mem_singleton.1 h)
    exact hx

end Lexeme

namespace Run

theorem failure_andThen_eq_none {r : Run} {next : Machine → Run}
    (h : (r.andThen next).failure = none) :
    r.failure = none ∧ (next r.machine).failure = none := by
  cases hr : r.failure with
  | some failure =>
      rw [andThen_of_failure hr, hr] at h
      cases h
  | none =>
      rw [andThen_of_not_failure hr] at h
      exact ⟨rfl, h⟩

end Run

namespace Machine

variable {m : Machine}

theorem settings_execute {i : Instruction} (hi : ∀ x, i = .act x → x.kind ≠ .comment)
    (m : Machine) : (m.execute i).machine.settings = m.settings := by
  cases i with
  | announce expression => rw [machine_announce]
  | act x => exact settings_act (hi x rfl) m

/-- Only a comment mark changes comment mode: no expression does, whatever it converts to. -/
theorem settings_feed {x : Lexeme} (hx : x.kind ≠ .comment) (m : Machine) :
    (m.feed x).machine.settings = m.settings := by
  have hloop : (m.feed x).contain = loop execute m [] x.instructions :=
    contain_feedWith_evaluateWith m x
  rw [← Run.machine_contain, hloop]
  refine loop_induction (P := fun next => next.settings = m.settings) ?_ rfl
  intro i hi next hnext
  rw [settings_execute ?_ next, hnext]
  rintro y rfl
  exact Lexeme.kind_of_act_mem_instructions hx hi

/-- A word turns comment mode over exactly if it is the comment mark. -/
theorem comment_feed (m : Machine) (word : Text) :
    (m.feed (.ofWord true word)).machine.comment = (m.comment ^^ (word == ['#'])) := by
  by_cases hword : word = ['#']
  · subst hword
    exact (Bool.xor_true m.comment).symm
  · have hkind : (Lexeme.ofWord true word).kind ≠ .comment :=
      fun h => hword (Kind.ofWord_eq_comment_iff.1 h).2
    have hsettings := congrArg Prod.fst (settings_feed hkind m)
    rw [beq_eq_false_iff_ne.2 hword, Bool.xor_false]
    exact hsettings

theorem run_cons (m : Machine) (x : Lexeme) (xs : List Lexeme) :
    m.run (x :: xs) = (m.feed x).contain.andThen fun next => next.run xs := rfl

theorem comment_run {words : List Text}
    (h : (m.run (words.map (Lexeme.ofWord true))).failure = none) :
    (m.run (words.map (Lexeme.ofWord true))).machine.comment =
      (m.comment ^^ (words.count ['#'] % 2 == 1)) := by
  induction words generalizing m with
  | nil => exact (Bool.xor_false m.comment).symm
  | cons word rest ih =>
      rw [List.map_cons, run_cons] at h ⊢
      obtain ⟨hfirst, hrest⟩ := Run.failure_andThen_eq_none h
      rw [Run.andThen_of_not_failure hfirst, ih hrest, Run.machine_contain, comment_feed,
        List.count_cons]
      rcases Nat.mod_two_eq_zero_or_one (rest.count ['#']) with hcount | hcount
      · cases word == ['#'] <;> simp [hcount, Nat.add_mod]
      · cases word == ['#'] <;> simp [hcount, Nat.add_mod]

/-- Where comment marks are characters, nothing changes comment mode. -/
theorem comment_process_false (m : Machine) (line : Text) :
    (m.process line false).machine.comment = m.comment := by
  rw [process, run, runWith_eq_loop]
  refine loop_induction (P := fun next => next.comment = m.comment) ?_ rfl
  intro x hx next hnext
  have hkind : x.kind ≠ .comment := by
    rw [(mem_lexemes.1 hx).2]
    intro h
    cases (Kind.ofWord_eq_comment_iff.1 h).1
  rw [← hnext]
  exact congrArg Prod.fst (settings_feed hkind next)

/-- The words of a run of a machine, and what is left of them: of the words that the machine meets
in comment mode, the marks apart, some have been deleted and some replaced by other words. -/
inductive Redacts : Machine → List Text → List Text → Prop
  | nil (m : Machine) : Redacts m [] []
  | kept {m : Machine} {word : Text} {words left : List Text}
      (h : Redacts (m.feed (.ofWord true word)).machine words left) :
      Redacts m (word :: words) (word :: left)
  | deleted {m : Machine} {word : Text} {words left : List Text} (hm : m.comment)
      (hword : word ≠ ['#']) (h : Redacts (m.feed (.ofWord true word)).machine words left) :
      Redacts m (word :: words) left
  | replaced {m : Machine} {word other : Text} {words left : List Text} (hm : m.comment)
      (hword : word ≠ ['#']) (hother : other ≠ ['#'])
      (h : Redacts (m.feed (.ofWord true word)).machine words left) :
      Redacts m (word :: words) (other :: left)

/-- In comment mode a word that is no comment mark does nothing. -/
theorem feed_of_comment (hm : m.comment) {word : Text} (hword : word ≠ ['#']) :
    m.feed (.ofWord true word) = .idle m :=
  feedWith_of_comment (fun h => hword (Kind.ofWord_eq_comment_iff.1 h).2) hm

theorem run_of_redacts {words left : List Text} (h : Redacts m words left) :
    m.run (left.map (Lexeme.ofWord true)) = m.run (words.map (Lexeme.ofWord true)) := by
  induction h with
  | nil m => rfl
  | @kept m word words left _ ih =>
      rw [List.map_cons, List.map_cons, run_cons, run_cons]
      refine Run.andThen_congr ?_
      rw [Run.machine_contain]
      exact ih
  | @deleted m word words left hm hword _ ih =>
      rw [feed_of_comment hm hword] at ih
      rw [List.map_cons, run_cons, feed_of_comment hm hword, Run.contain_idle, Run.idle_andThen]
      exact ih
  | @replaced m word other words left hm hword hother _ ih =>
      rw [feed_of_comment hm hword] at ih
      rw [List.map_cons, List.map_cons, run_cons, run_cons, feed_of_comment hm hword,
        feed_of_comment hm hother, Run.contain_idle, Run.idle_andThen, Run.idle_andThen]
      exact ih

theorem Valid.failure_processLines (hm : m.Valid) {lines : List Text} {comments : Bool}
    {failure : Failure} (h : (m.processLines comments lines).failure = some failure) :
    failure = .arithmeticFault ∨ ∃ line ∈ lines,
      ∃ x ∈ flatLexemes comments line, x.TooLong ∧ failure = .invalidNumeral 10 x.text := by
  induction lines generalizing m with
  | nil => cases h
  | cons line rest ih =>
      rw [processLines_cons] at h
      cases hfailure : (m.process line comments).failure with
      | none =>
          rw [Run.andThen_of_not_failure hfailure] at h
          refine (ih (invariant_valid.process hm line comments) h).imp_right ?_
          exact fun ⟨other, hother, hx⟩ => ⟨other, List.mem_cons_of_mem line hother, hx⟩
      | some first =>
          rw [Run.andThen_of_failure hfailure] at h
          exact (hm.failure_process h).imp_right fun hx => ⟨line, List.mem_cons_self, hx⟩

/-- If the lines are run to the end, comment mode is the parity of the comment marks among their words,
and no other word touches it, nor does anything that comes of an expression. Only a fault and a numeral
that is too long keep lines from being run to the end. Words in a comment may be deleted or replaced:
the run stays the same, however it ends and whether or not conversions are printed. -/
theorem comment_processLines_and_redacts (m : Machine) (lines : List Text) :
    ((m.processLines true lines).failure = none →
      (m.processLines true lines).machine.comment =
        (m.comment ^^ ((lines.flatMap Text.words).count ['#'] % 2 == 1))) ∧
      (m.Reachable → ∀ failure, (m.processLines true lines).failure = some failure →
        failure = .arithmeticFault ∨ ∃ line ∈ lines,
          ∃ x ∈ flatLexemes true line, x.TooLong ∧ failure = .invalidNumeral 10 x.text) ∧
      (∀ n : Machine, ∀ word, word ≠ ['#'] →
        (n.feed (.ofWord true word)).machine.comment = n.comment) ∧
        (∀ n : Machine, ∀ expression,
          (n.process (convert expression) false).machine.comment = n.comment) ∧
          ∀ redacted : List Text,
            Redacts m (lines.flatMap Text.words) (redacted.flatMap Text.words) →
              m.processLines true redacted = m.processLines true lines := by
  refine ⟨?_, fun hm _ => hm.valid.failure_processLines, ?_, ?_, ?_⟩
  · intro h
    rw [processLines_eq_run] at h ⊢
    exact comment_run h
  · intro n word hword
    rw [comment_feed, beq_eq_false_iff_ne.2 hword, Bool.xor_false]
  · intro n expression
    exact n.comment_process_false (convert expression)
  · intro redacted h
    rw [processLines_eq_run, processLines_eq_run, run_of_redacts h]

/-- Two lines with a comment from each to the next. -/
def commentedLines : List Text := ["3 # r 5%0".toList, "4*# # 2#+1 #".toList]

/-- The lines without the draw in the comment, and with a command in the place of the remainder. -/
def redactedLines : List Text := ["3 # d".toList, [], " 4*# # 2#+1 #".toList]

/-- The marks in the expressions count for nothing, so comment mode is on in the end. Neither the draw
nor the remainder of a division by zero that stand in the comment have a part in the run. -/
theorem processLines_redactedLines :
    ((ofSeed 1 true).processLines true commentedLines).failure = none ∧
      ((ofSeed 1 true).processLines true commentedLines).machine.comment = true ∧
        Redacts (ofSeed 1 true) (commentedLines.flatMap Text.words)
          (redactedLines.flatMap Text.words) ∧
          (ofSeed 1 true).processLines true redactedLines =
            (ofSeed 1 true).processLines true commentedLines := by
  have hfailure : ((ofSeed 1 true).processLines true commentedLines).failure = none := by
    decide +kernel
  have hwords : commentedLines.flatMap Text.words =
      ["3".toList, ['#'], ['r'], "5%0".toList, "4*#".toList, ['#'], "2#+1".toList, ['#']] := by
    decide +kernel
  have hleft : redactedLines.flatMap Text.words =
      ["3".toList, ['#'], ['d'], "4*#".toList, ['#'], "2#+1".toList, ['#']] := by
    decide +kernel
  have hredacts : Redacts (ofSeed 1 true) (commentedLines.flatMap Text.words)
      (redactedLines.flatMap Text.words) := by
    rw [hwords, hleft]
    refine .kept (.kept (.deleted ?_ (by decide) (.replaced ?_ (by decide) (by decide)
      (.kept (.kept (.kept (.kept (.nil _))))))))
    · decide +kernel
    · decide +kernel
  obtain ⟨hcomment, -, -, -, hrun⟩ := comment_processLines_and_redacts (ofSeed 1 true) commentedLines
  refine ⟨hfailure, ?_, hredacts, hrun _ hredacts⟩
  rw [hcomment hfailure, hwords]
  decide +kernel

/-- A comment mark behind a numeral that is too long is not come to. -/
theorem process_tooManyOnes_mark :
    (ofSeed 1 false).processLines true [Numeral.tooManyOnes.text ++ " #".toList] =
      .failing (ofSeed 1 false) (.invalidNumeral 10 Numeral.tooManyOnes.text) := by
  have hwords : Text.words (Numeral.tooManyOnes.text ++ " #".toList) =
      [Numeral.tooManyOnes.text, ['#']] := by
    rw [show " #".toList = ' ' :: ['#'] from rfl, Text.words_append_cons (by decide),
      Numeral.words_text]
    rfl
  rw [processLines_eq_run, List.flatMap_singleton, hwords, List.map_cons, run_cons, feed,
    Numeral.ofWord_text, Numeral.feedWith_of_tooLong _ rfl Numeral.tooLong_tooManyOnes]
  rfl

end Machine

end RpnCalculator
