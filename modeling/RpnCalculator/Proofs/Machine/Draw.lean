import RpnCalculator.Proofs.Machine.Representation
import RpnCalculator.Proofs.Machine.Turns

/-!
# Numbers that the machine draws

The random sequence is advanced by one kind of turn only, the command for a random number where there
is room on the stack (`random_act`), and such a turn pushes the number that it draws. So the numbers
that are pushed in lines run in order are the first ones of the sequence, none left out, none twice.
-/

namespace RpnCalculator

namespace RandomSequence

/-- Draws go on where those before them have stopped. -/
theorem draw_add (r : RandomSequence) (j k : Nat) :
    r.draw (j + k) = ((r.draw j).1 ++ ((r.draw j).2.draw k).1, ((r.draw j).2.draw k).2) := by
  induction j generalizing r with
  | zero => simp
  | succ j ih => rw [Nat.add_right_comm, draw_succ, draw_succ, ih, List.cons_append]

end RandomSequence

namespace Turn

/-- The machine obeys the command for a random number. -/
def AsksRandom (t : Turn) : Prop :=
  t.machine.comment = false ∧ t.lexeme = ⟨.character, ['r']⟩

/-- The machine obeys the command for a random number, and there is room for one. -/
def Draws (t : Turn) : Prop := t.AsksRandom ∧ t.machine.stack.size < 23

instance (t : Turn) : Decidable t.AsksRandom := inferInstanceAs (Decidable (_ ∧ _))

instance (t : Turn) : Decidable t.Draws := inferInstanceAs (Decidable (_ ∧ _))

/-- The values that stand on the stack after a turn, above the places taken before it. -/
def added (t : Turn) : List Int :=
  (t.machine.act t.lexeme).machine.stack.toList.drop t.machine.stack.size

variable {t : Turn}

theorem act_of_asksRandom (h : t.AsksRandom) : t.machine.act t.lexeme = t.machine.pushRandom := by
  rw [h.2, Machine.act, Machine.feedWith_character h.1]
  rfl

theorem draws_iff (h : t.AsksRandom) : t.Draws ↔ ¬ t.machine.stack.isFull := by
  rw [Stack.isFull_iff, Stack.capacity, Draws, and_iff_right h, Nat.not_le]

/-- A turn that draws pushes the number that it draws, and one that finds no room pushes nothing. -/
theorem added_of_asksRandom (h : t.AsksRandom) :
    t.added = if t.Draws then [(t.machine.random.next : Int)] else [] := by
  have hsize : t.machine.stack.size = t.machine.stack.values.reverse.length :=
    List.length_reverse.symm
  rw [added, act_of_asksRandom h, Stack.toList, Machine.values_pushRandom, hsize]
  by_cases hfull : t.machine.stack.isFull
  · rw [if_pos hfull, if_neg fun hdraws => (draws_iff h).1 hdraws hfull, List.drop_length]
  · rw [if_neg hfull, if_pos ((draws_iff h).2 hfull), List.reverse_cons, List.drop_left]

end Turn

namespace Machine

theorem random_pushRandom (m : Machine) :
    m.pushRandom.machine.random = if m.stack.isFull then m.random else m.random.advance := by
  rw [pushRandom]
  split
  · rfl
  · rfl

theorem random_obey_of_ne (m : Machine) {text : Text} (h : text ≠ ['r']) :
    (m.obey text).machine.random = m.random := by
  unfold obey
  split
  · rfl
  · exact absurd rfl h
  · rfl
  · rfl

theorem random_act_of_not_asksRandom {m : Machine} {x : Lexeme}
    (h : ¬ (Turn.mk m x).AsksRandom) : (m.act x).machine.random = m.random := by
  cases x with
  | mk kind text =>
  cases hm : m.comment with
  | true =>
      by_cases hmark : kind = .comment
      · rw [act_comment hmark]
        rfl
      · rw [act_of_comment hmark hm, Run.machine_idle]
  | false =>
      rw [act]
      cases kind with
      | octal =>
          rw [feedWith_octal hm]
          obtain ⟨values, hvalues⟩ := m.exists_withValues_pushLiteral 8 text
          rw [hvalues]
          rfl
      | malformed => rw [feedWith_malformed hm, Run.machine_idle]
      | decimal =>
          rw [feedWith_decimal hm]
          obtain ⟨values, hvalues⟩ := m.exists_withValues_pushLiteral 10 text
          rw [hvalues]
          rfl
      | operator =>
          rw [feedWith_operator hm]
          obtain ⟨values, hvalues⟩ := m.exists_withValues_applyOperator text
          rw [hvalues]
          rfl
      | comment => rfl
      | character =>
          rw [feedWith_character hm]
          exact m.random_obey_of_ne fun htext => h ⟨hm, congrArg (Lexeme.mk .character) htext⟩
      | expression => rw [feedWith_expression hm, Run.failing]

/-- Only a turn that draws advances the random sequence. -/
theorem random_act (m : Machine) (x : Lexeme) :
    (m.act x).machine.random =
      if (Turn.mk m x).Draws then m.random.advance else m.random := by
  by_cases hasks : (Turn.mk m x).AsksRandom
  · rw [Turn.act_of_asksRandom hasks, random_pushRandom]
    simp only [Turn.draws_iff hasks, ite_not]
  · rw [random_act_of_not_asksRandom hasks, if_neg fun hdraws => hasks hdraws.1]

end Machine

/-- In some turns the random sequence `r` has become `last`: it has been drawn from once for each turn
that draws, and the numbers drawn are those that have been pushed, in order. -/
structure DrawsFrom (r : RandomSequence) (turns : List Turn) (last : RandomSequence) : Prop where
  numbers : (turns.filter Turn.AsksRandom).flatMap Turn.added =
    (r.draw (turns.countP Turn.Draws)).1.map fun n : Nat => (n : Int)
  last : last = (r.draw (turns.countP Turn.Draws)).2

namespace DrawsFrom

variable {r middle last : RandomSequence} {turns later : List Turn}

theorem nil (r : RandomSequence) : DrawsFrom r [] r := ⟨rfl, rfl⟩

theorem append (h : DrawsFrom r turns middle) (h' : DrawsFrom middle later last) :
    DrawsFrom r (turns ++ later) last := by
  have hdraw := r.draw_add (turns.countP Turn.Draws) (later.countP Turn.Draws)
  rw [← h.last] at hdraw
  refine ⟨?_, ?_⟩
  · rw [List.filter_append, List.flatMap_append, h.numbers, h'.numbers, List.countP_append, hdraw,
      List.map_append]
  · rw [h'.last, List.countP_append, hdraw]

theorem singleton (m : Machine) (x : Lexeme) :
    DrawsFrom m.random [⟨m, x⟩] (m.act x).machine.random := by
  rw [Machine.random_act]
  by_cases hasks : (Turn.mk m x).AsksRandom
  · have hadded := Turn.added_of_asksRandom hasks
    by_cases hdraws : (Turn.mk m x).Draws
    · refine ⟨?_, ?_⟩ <;> simp [hasks, hdraws, hadded, RandomSequence.draw_succ]
    · refine ⟨?_, ?_⟩ <;> simp [hasks, hdraws, hadded]
  · have hdraws : ¬ (Turn.mk m x).Draws := fun hdraws => hasks hdraws.1
    refine ⟨?_, ?_⟩ <;> simp [hasks, hdraws]

theorem turns_act (m : Machine) (xs : List Lexeme) :
    DrawsFrom m.random (m.turns Machine.act xs) (Machine.loop Machine.act m [] xs).machine.random := by
  induction xs generalizing m with
  | nil => exact .nil _
  | cons x xs ih =>
      have hfirst := singleton m x
      rw [Machine.loop_cons]
      cases hfailure : (m.act x).contain.failure with
      | some failure =>
          rw [Machine.turns_cons_of_failure hfailure, Run.andThen_of_failure hfailure,
            Run.machine_contain]
          exact hfirst
      | none =>
          rw [Machine.turns_cons_of_not_failure hfailure, Run.andThen_of_not_failure hfailure,
            Run.machine_contain]
          exact hfirst.append (ih _)

theorem flatTurns (comments : Bool) (m : Machine) (lines : List Text) :
    DrawsFrom m.random (m.flatTurns comments lines) (m.afterLines comments lines).random := by
  induction lines generalizing m with
  | nil => exact .nil _
  | cons line rest ih =>
      have hline := turns_act m (flatLexemes comments line)
      rw [← (m.process_agrees line comments).machine] at hline
      rw [Machine.flatTurns, Machine.throughout_cons, Machine.afterLines_cons]
      exact hline.append (ih _)

end DrawsFrom

namespace Machine

/-- The numbers pushed by the commands for a random number in lines run in order, whether or not some
of the lines fail, are the first numbers of the sequence of the seed: one for each such command that
finds room, in order. No other turn advances the sequence, be it in a comment, without room, or one
that reports an error or fails. -/
theorem numbers_pushed_in_order (seed : Int) (verbose comments : Bool) (lines : List Text) :
    (((ofSeed seed verbose).flatTurns comments lines).filter Turn.AsksRandom).flatMap Turn.added =
        (((RandomSequence.ofSeed seed).draw
          (((ofSeed seed verbose).flatTurns comments lines).countP Turn.Draws)).1.map
            fun n : Nat => (n : Int)) ∧
      ((ofSeed seed verbose).afterLines comments lines).random =
        ((RandomSequence.ofSeed seed).draw
          (((ofSeed seed verbose).flatTurns comments lines).countP Turn.Draws)).2 ∧
        (∀ t : Turn, (t.machine.act t.lexeme).machine.random =
          if t.Draws then t.machine.random.advance else t.machine.random) ∧
          ∀ t : Turn, (t.machine.act t.lexeme).failure ≠ none ∨ (t.machine.act t.lexeme).err ≠ [] →
            (t.machine.act t.lexeme).machine.random = t.machine.random := by
  have hdraws := DrawsFrom.flatTurns comments (ofSeed seed verbose) lines
  refine ⟨hdraws.numbers, hdraws.last, fun t => random_act t.machine t.lexeme, ?_⟩
  intro t hreport
  rw [random_act, if_neg]
  intro h
  have hidle := Turn.act_of_asksRandom h.1
  rw [pushRandom_of_not_isFull ((Turn.draws_iff h.1).1 h)] at hidle
  rw [hidle] at hreport
  exact hreport.elim (fun hfailure => hfailure rfl) fun herr => herr rfl

/-- Lines with a draw in an expression, one in a comment, one behind a fault, and two at the end, of
which the second finds no room. -/
def drawingLines : List Text :=
  ["2r # r # 3 0 % r".toList, "1 1 1 1 1 1 1 1 1 1 1 1 1 1 1 1 1 1 1 1 r r".toList]

/-- Three of the five commands are obeyed, and two of them draw. A division by zero leaves the sequence
as it is. -/
theorem numbers_pushed_drawingLines :
    (((ofSeed 1 false).flatTurns true drawingLines).filter Turn.AsksRandom).length = 3 ∧
      (((ofSeed 1 false).flatTurns true drawingLines).filter Turn.AsksRandom).flatMap Turn.added =
          (((RandomSequence.ofSeed 1).draw 2).1.map fun n : Nat => (n : Int)) ∧
        ((ofSeed 1 false).afterLines true drawingLines).random =
          ((RandomSequence.ofSeed 1).draw 2).2 ∧
          (((ofSeed 1 false).withValues [0, 5]).act ⟨.operator, ['/']⟩).machine.random =
            (ofSeed 1 false).random := by
  have hcount : ((ofSeed 1 false).flatTurns true drawingLines).countP Turn.Draws = 2 := by
    decide +kernel
  have hfailure : (((ofSeed 1 false).withValues [0, 5]).act ⟨.operator, ['/']⟩).failure ≠ none := by
    decide +kernel
  obtain ⟨hpushed, hrandom, -, hreport⟩ := numbers_pushed_in_order 1 false true drawingLines
  rw [hcount] at hpushed hrandom
  exact ⟨by decide +kernel, hpushed, hrandom,
    hreport ⟨(ofSeed 1 false).withValues [0, 5], ⟨.operator, ['/']⟩⟩ (.inl hfailure)⟩

end Machine

end RpnCalculator
