import RpnCalculator.Proofs.Machine.Verbosity

/-!
# What lies below on the stack

What a machine does depends on the upper part of its stack only, the part that it has put there and
the operands that it takes. Values that lie below, put there with `Machine.above`, stay where they are,
and the machine does the same with them as without (`loop_execute_above`), as long as the stack is
neither too short without them nor too full with them. Only what shows the stack can tell: the
listing, and the top of a stack that is empty without them (`Turn.LooksBelow`).
-/

namespace RpnCalculator

namespace Machine

/-- The machine with further values below those on its stack, the lowest first. -/
def above (m : Machine) (below : List Int) : Machine :=
  m.withValues (m.stack.values ++ below.reverse)

variable {m : Machine} {below : List Int}

@[simp] theorem values_above (m : Machine) (below : List Int) :
    (m.above below).stack.values = m.stack.values ++ below.reverse := rfl

@[simp] theorem comment_above (m : Machine) (below : List Int) :
    (m.above below).comment = m.comment := rfl

theorem toList_above (m : Machine) (below : List Int) :
    (m.above below).stack.toList = below ++ m.stack.toList := by
  simp [Stack.toList]

end Machine

/-- In a turn the machine shows the values that lie below: all values, or the top when it has none. -/
def Turn.LooksBelow (t : Turn) : Prop :=
  t.machine.comment = false ∧
    (t.lexeme = ⟨.character, ['d']⟩ ∨
      t.lexeme = ⟨.character, ['=']⟩ ∧ t.machine.stack.values = [])

instance (t : Turn) : Decidable t.LooksBelow := inferInstanceAs (Decidable (_ ∧ _))

namespace Run

/-- `r` is the run `s` with further values below on the stack. It prints the same if `same` holds. -/
structure Above (r s : Run) (below : List Int) (same : Prop) : Prop where
  machine : r.machine = s.machine.above below
  failure : r.failure = s.failure
  events : same → r.events = s.events

variable {r s : Run} {m : Machine} {below : List Int} {same other : Prop}

theorem above_idle (m : Machine) : (idle (m.above below)).Above (idle m) below same :=
  ⟨rfl, rfl, fun _ => rfl⟩

theorem above_failing (m : Machine) (failure : Failure) :
    (failing (m.above below) failure).Above (failing m failure) below same :=
  ⟨rfl, rfl, fun _ => rfl⟩

theorem above_printing (events : List Event) :
    (printing (m.above below) events).Above (printing m events) below same :=
  ⟨rfl, rfl, fun _ => rfl⟩

theorem Above.contain (h : r.Above s below same) : r.contain.Above s.contain below same := by
  refine ⟨?_, ?_, fun hsame => ?_⟩
  · rw [machine_contain, machine_contain, h.machine]
  · rw [Run.contain, Run.contain, h.failure]
    split <;> first | rfl | exact h.failure
  · rw [Run.contain, Run.contain, h.failure]
    split
    · exact congrArg (· ++ _) (h.events hsame)
    · exact h.events hsame

theorem Above.mono (h : r.Above s below same) (hother : other → same) : r.Above s below other :=
  ⟨h.machine, h.failure, fun hsame => h.events (hother hsame)⟩

theorem Above.andThen {next later : Machine → Run} (h : r.Above s below same)
    (hnext : s.failure = none → (next (s.machine.above below)).Above (later s.machine) below same) :
    (r.andThen next).Above (s.andThen later) below same := by
  cases hs : s.failure with
  | some failure =>
      rw [andThen_of_failure (h.failure.trans hs), andThen_of_failure hs]
      exact h
  | none =>
      have hlater := hnext hs
      rw [andThen_of_not_failure (h.failure.trans hs), andThen_of_not_failure hs, h.machine]
      refine ⟨hlater.machine, hlater.failure, fun hsame => ?_⟩
      simp only [h.events hsame, hlater.events hsame]

theorem events_subset_contain (r : Run) : r.events ⊆ r.contain.events := by
  unfold Run.contain
  split
  · exact List.subset_append_left _ _
  · exact List.Subset.refl _

/-- What is not printed in a run is printed in no part of it. -/
theorem not_mem_events_of_andThen {e : Event} {next : Machine → Run}
    (h : e ∉ (r.contain.andThen next).events) :
    e ∉ r.events ∧ (r.contain.failure = none → e ∉ (next r.machine).events) := by
  cases hr : r.contain.failure with
  | some failure =>
      rw [andThen_of_failure hr] at h
      exact ⟨fun he => h (r.events_subset_contain he), fun hnone => by cases hnone⟩
  | none =>
      rw [andThen_of_not_failure hr, List.mem_append, not_or, machine_contain] at h
      exact ⟨fun he => h.1 (r.events_subset_contain he), fun _ => h.2⟩

end Run

namespace Machine

variable {m : Machine} {below : List Int} {same : Prop}

theorem isFull_above (h : m.stack.isFull) : (m.above below).stack.isFull := by
  rw [Stack.isFull_iff, Stack.size] at h ⊢
  rw [values_above, List.length_append]
  omega

theorem valid_stack_of_above (h : (m.above below).stack.Valid) : m.stack.Valid := by
  refine ⟨?_, fun value hvalue => h.2 value (List.mem_append_left _ hvalue)⟩
  have hsize := h.1
  rw [Stack.size, values_above, List.length_append] at hsize
  rw [Stack.size]
  omega

/-- A stack stays valid, whatever state the random sequence is in. -/
theorem invariant_valid_stack : Invariant fun m => m.stack.Valid where
  push v h := h.push v
  pop h := h.pop
  reseed {m} seed h := by
    rw [Machine.reseed]
    exact h
  advance h := h
  toggleComment h := h

/-! One lexeme. -/

theorem push_above {v : Number} (hroom : .overflow ∉ ((m.above below).push v).events) :
    ((m.above below).push v).Above (m.push v) below same := by
  have hfull : ¬ (m.above below).stack.isFull := by
    intro hfull
    rw [push_of_isFull hfull] at hroom
    exact hroom List.mem_cons_self
  rw [push_of_not_isFull hfull, push_of_not_isFull (mt isFull_above hfull)]
  exact Run.above_idle (m.withValues (v.saturate :: m.stack.values))

theorem pushRandom_above (hroom : .overflow ∉ (m.above below).pushRandom.events) :
    (m.above below).pushRandom.Above m.pushRandom below same := by
  have hfull : ¬ (m.above below).stack.isFull := by
    intro hfull
    rw [pushRandom_of_isFull hfull] at hroom
    exact hroom List.mem_cons_self
  rw [pushRandom_of_not_isFull hfull, pushRandom_of_not_isFull (mt isFull_above hfull)]
  exact ⟨rfl, rfl, fun _ => rfl⟩

/-- The operands are taken from above the values below, and put back there after a complaint. -/
theorem applyOperator_above (hm : (m.above below).stack.Valid) {o : Operator}
    (hoperands : .underflow ∉ (m.applyOperator [o.symbol]).events) :
    ((m.above below).applyOperator [o.symbol]).Above (m.applyOperator [o.symbol]) below same := by
  have hshort : ¬ m.stack.isShort := by
    intro hshort
    rw [applyOperator_of_isShort hshort] at hoperands
    exact hoperands List.mem_cons_self
  obtain ⟨right, left, values, hvalues⟩ := exists_values_of_not_isShort hshort
  have habove : (m.above below).stack.values = right :: left :: (values ++ below.reverse) := by
    rw [values_above, hvalues]
    rfl
  have hroom : (values ++ below.reverse).length < Stack.capacity := by
    have hsize := hm.1
    rw [Stack.size, habove, List.length_cons, List.length_cons] at hsize
    omega
  cases happly : o.apply left right with
  | ok x =>
      have hroom' : values.length < Stack.capacity := by
        rw [List.length_append] at hroom
        omega
      rw [applyOperator_of_ok habove hroom happly, applyOperator_of_ok hvalues hroom' happly]
      exact Run.above_idle (m.withValues (x.saturate :: values))
  | error failure =>
      rcases Operator.eq_of_apply_eq_error happly with rfl | ⟨cause, rfl⟩
      · rw [applyOperator_of_fault habove happly, applyOperator_of_fault hvalues happly]
        exact Run.above_failing (m.withValues values) _
      · rw [applyOperator_of_complaint hm habove happly,
          applyOperator_of_complaint (valid_stack_of_above hm) hvalues happly]
        exact Run.above_failing _ _

/-- A command that shows the values below is the only one that can tell whether they are there. -/
theorem obey_above (hcomment : m.comment = false) {text : Text}
    (hroom : .overflow ∉ ((m.above below).obey text).events) :
    ((m.above below).obey text).Above (m.obey text) below
      (¬ (Turn.mk m ⟨.character, text⟩).LooksBelow) := by
  unfold obey at hroom ⊢
  split
  · exact ⟨rfl, rfl, fun hsame => absurd ⟨hcomment, .inl rfl⟩ hsame⟩
  · exact pushRandom_above hroom
  · cases hvalues : m.stack.values with
    | nil => exact ⟨rfl, rfl, fun hsame => absurd ⟨hcomment, .inr ⟨rfl, hvalues⟩⟩ hsame⟩
    | cons value values =>
        have htop : (m.above below).stack.topEvent = m.stack.topEvent := by
          rw [Stack.topEvent, Stack.topEvent, values_above, hvalues]
          rfl
        rw [htop]
        exact Run.above_printing _
  · exact Run.above_failing m _

/-- A lexeme does the same with further values below, if it finds its operands above them and room for
what it pushes. -/
theorem act_above (hm : (m.above below).stack.Valid) {x : Lexeme} (hx : x.Proper)
    (hkind : x.kind ≠ .expression) (hoperands : .underflow ∉ (m.act x).events)
    (hroom : .overflow ∉ ((m.above below).act x).events) :
    ((m.above below).act x).Above (m.act x) below (¬ (Turn.mk m x).LooksBelow) := by
  cases hcomment : m.comment with
  | true =>
      by_cases hmark : x.kind = .comment
      · rw [act_comment hmark, act_comment hmark]
        exact Run.above_idle m.toggleComment
      · rw [act_of_comment hmark hcomment, act_of_comment hmark (m := m.above below) hcomment]
        exact Run.above_idle m
  | false =>
      have hcomment' : (m.above below).comment = false := hcomment
      rw [act] at hoperands hroom
      rw [act, act]
      cases hx with
      | numeral a =>
          by_cases ha : a.lexeme.kind = .malformed
          · rw [a.feedWith_of_malformed hcomment ha, a.feedWith_of_malformed hcomment' ha]
            exact Run.above_idle m
          · by_cases hlong : a.lexeme.TooLong
            · rw [a.feedWith_of_tooLong hcomment hlong, a.feedWith_of_tooLong hcomment' hlong]
              exact Run.above_failing m _
            · rw [a.feedWith_lexeme hcomment' ha hlong] at hroom
              rw [a.feedWith_lexeme hcomment ha hlong, a.feedWith_lexeme hcomment' ha hlong]
              exact push_above hroom
      | operator o =>
          rw [feedWith_operator hcomment] at hoperands
          rw [feedWith_operator hcomment, feedWith_operator hcomment']
          exact applyOperator_above hm hoperands
      | comment => exact Run.above_idle m.toggleComment
      | character hblank =>
          rw [feedWith_character hcomment'] at hroom
          rw [feedWith_character hcomment, feedWith_character hcomment']
          exact obey_above hcomment hroom
      | expression text => exact absurd rfl hkind

/-! A loop. -/

theorem announce_above (m : Machine) (below : List Int) (same : Prop) (expression : Text) :
    ((m.above below).execute (.announce expression)).Above (m.execute (.announce expression)) below
      same := by
  rw [execute, execute, comment_above]
  split
  · exact Run.above_idle m
  · exact Run.above_printing (m.conversionEvents expression)

/-- A loop does the same with further values below, if it never comes to lack operands without them and
never runs out of room with them. It prints the same, too, unless one of its turns shows them. -/
theorem loop_execute_above {program : List Instruction}
    (hprogram : ∀ x ∈ program.filterMap Instruction.lexeme?, x.Proper ∧ x.kind ≠ .expression)
    (hm : (m.above below).stack.Valid)
    (hoperands : .underflow ∉ (loop execute m [] program).events)
    (hroom : .overflow ∉ (loop execute (m.above below) [] program).events) :
    (loop execute (m.above below) [] program).Above (loop execute m [] program) below
      (∀ t ∈ m.turns act (program.filterMap Instruction.lexeme?), ¬ t.LooksBelow) := by
  induction program generalizing m with
  | nil => exact Run.above_idle m
  | cons i program ih =>
      rw [loop_cons] at hoperands hroom
      rw [loop_cons, loop_cons]
      obtain ⟨hoperands, hoperandsRest⟩ := Run.not_mem_events_of_andThen hoperands
      obtain ⟨hroom, hroomRest⟩ := Run.not_mem_events_of_andThen hroom
      cases i with
      | announce expression =>
          rw [List.filterMap_cons_none rfl] at hprogram ⊢
          have hannounce := (m.announce_above below
            (∀ t ∈ m.turns act (program.filterMap Instruction.lexeme?), ¬ t.LooksBelow)
              expression).contain
          refine hannounce.andThen fun hnone => ?_
          have hoperands := hoperandsRest hnone
          have hroom := hroomRest (hannounce.failure.trans hnone)
          rw [machine_announce] at hoperands hroom
          rw [Run.machine_contain, machine_announce]
          exact ih hprogram hm hoperands hroom
      | act x =>
          rw [List.filterMap_cons_some (f := Instruction.lexeme?) rfl] at hprogram ⊢
          obtain ⟨hx, hkind⟩ := hprogram x List.mem_cons_self
          have hact := act_above hm hx hkind hoperands hroom
          -- Putting operands back needs a valid stack with the values below, and every step keeps it.
          have hvalid : ((m.act x).machine.above below).stack.Valid := by
            rw [← hact.machine]
            exact invariant_valid_stack.act hm x
          refine (hact.contain.mono fun hturns => ?_).andThen fun hnone => ?_
          · exact hturns _ (by rw [turns]; exact List.mem_cons_self)
          · have hoperands := hoperandsRest hnone
            have hroom := hroomRest (hact.contain.failure.trans hnone)
            rw [execute, hact.machine] at hroom
            rw [turns_cons_of_not_failure hnone, Run.machine_contain]
            exact (ih (fun y hy => hprogram y (List.mem_cons_of_mem _ hy)) hvalid hoperands
              hroom).mono fun hturns t ht => hturns t (List.mem_cons_of_mem _ ht)

/-! A line. -/

variable {s t : Machine}

theorem process_above {line : Text} {comments : Bool} (hm : (m.above below).stack.Valid)
    (hoperands : .underflow ∉ (m.process line comments).events)
    (hroom : .overflow ∉ ((m.above below).process line comments).events) :
    ((m.above below).process line comments).Above (m.process line comments) below
      (∀ t ∈ m.turns act (flatLexemes comments line), ¬ t.LooksBelow) := by
  rw [process_eq_loop_execute] at hoperands hroom
  rw [process_eq_loop_execute, process_eq_loop_execute, ← filterMap_lexeme?_instructions]
  refine loop_execute_above (fun x hx => ?_) hm hoperands hroom
  rw [filterMap_lexeme?_instructions] at hx
  exact ⟨proper_of_mem_flatLexemes hx, kind_of_mem_flatLexemes hx⟩

/-- What a line does is a matter of the upper part of the stack. Of two machines in the same state of
which one has further values below on its stack, both run the line to the same end and leave the same
on top of these values, if the one without them lacks no operands and the one with them does not run
out of room. Unless the values below are shown, they print the same on standard output, and on standard
error too, where only the announcements differ if one of them prints conversions and the other does
not. -/
theorem process_of_toList_eq_append (ht : t.stack.Valid)
    (hstack : t.stack.toList = below ++ s.stack.toList) (hcomment : t.comment = s.comment)
    (hrandom : t.random = s.random) (line : Text) (comments : Bool)
    (hoperands : .underflow ∉ (s.process line comments).events)
    (hroom : .overflow ∉ (t.process line comments).events) :
    (t.process line comments).failure = (s.process line comments).failure ∧
      (t.process line comments).machine.comment = (s.process line comments).machine.comment ∧
        (t.process line comments).machine.random = (s.process line comments).machine.random ∧
          (t.process line comments).machine.stack.toList =
            below ++ (s.process line comments).machine.stack.toList ∧
            ((∀ turn ∈ s.turns act (flatLexemes comments line), ¬ turn.LooksBelow) →
              (t.process line comments).out = (s.process line comments).out ∧
                (t.process line comments).terse.err = (s.process line comments).terse.err ∧
                  (t.verbose = s.verbose →
                    (t.process line comments).err = (s.process line comments).err)) := by
  have hstack' : t.stack = (s.above below).stack := by
    rw [← toList_above] at hstack
    exact Stack.ext (List.reverse_injective hstack)
  have hterse : t.terse = (s.above below).terse :=
    terse_eq_terse_iff.2 ⟨hstack', hcomment, hrandom⟩
  have hrun : (t.process line comments).terse = ((s.above below).process line comments).terse := by
    rw [← process_terse, ← process_terse, hterse]
  have hroom' : .overflow ∉ ((s.above below).process line comments).events := by
    intro h
    have hmem := Run.mem_events_terse.2 ⟨h, rfl⟩
    rw [← hrun] at hmem
    exact hroom (Run.mem_events_terse.1 hmem).1
  have habove := process_above (hstack' ▸ ht) hoperands hroom'
  have hfailure : (t.process line comments).failure =
      ((s.above below).process line comments).failure := (Run.mk.inj hrun).2.2
  obtain ⟨hstacks, hcomments, hrandoms⟩ := terse_eq_terse_iff.1 (Run.mk.inj hrun).1
  rw [hfailure, hcomments, hrandoms, hstacks, habove.machine]
  refine ⟨habove.failure, rfl, rfl, toList_above _ below, fun hturns => ?_⟩
  have hevents := habove.events hturns
  refine ⟨?_, ?_, fun hverbose => ?_⟩
  · rw [← Run.out_terse, hrun, Run.out_terse, Run.out, hevents, Run.out]
  · rw [hrun, Run.err, Run.terse, hevents, Run.err, Run.terse]
  · rw [eq_of_terse_eq hterse hverbose, Run.err, hevents, Run.err]

/-- A machine with four values below the top of its stack. -/
def tall : Machine := (ofSeed 1 true).withValues [5, 2147483647, -2147483648, 0, -7]

/-- The same machine without these values. -/
def low : Machine := (ofSeed 1 true).withValues [5]

/-- The values below stay where they are when a complaint puts operands back on the stack and a fault
takes them off. -/
theorem process_tall :
    tall.stack.Valid ∧ tall.stack.toList = [-7, 0, -2147483648, 2147483647] ++ low.stack.toList ∧
      (tall.process "2+3 * = # d # 1/0 %".toList true).failure = some .arithmeticFault ∧
        (tall.process "2+3 * = # d # 1/0 %".toList true).machine.stack.toList =
          [-7, 0, -2147483648, 2147483647] ++ [25] ∧
          (tall.process "2+3 * = # d # 1/0 %".toList true).out = "25\n".toList ∧
            (tall.process "2+3 * = # d # 1/0 %".toList true).err =
              "2+3 -> 2 3 + \n1/0 -> 1 0 / \nDivide by 0.\n".toList := by
  have hvalid : tall.stack.Valid := by decide +kernel
  have hstack : tall.stack.toList = [-7, 0, -2147483648, 2147483647] ++ low.stack.toList := by
    decide +kernel
  obtain ⟨hfailure, -, -, hvalues, hprinted⟩ :=
    process_of_toList_eq_append hvalid hstack rfl rfl "2+3 * = # d # 1/0 %".toList true
      (by decide +kernel) (by decide +kernel)
  obtain ⟨hout, -, herr⟩ := hprinted (by decide +kernel)
  rw [hfailure, hvalues, hout, herr rfl]
  exact ⟨hvalid, hstack, by decide +kernel, by decide +kernel, by decide +kernel,
    by decide +kernel⟩

end Machine

end RpnCalculator
