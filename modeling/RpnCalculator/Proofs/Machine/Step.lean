import RpnCalculator.Machine.Step

/-!
# The operations of the machine, case by case

What each operation makes of a machine is said here once, by the state of the stack, so that no later
proof has to open the operations. The one that needs an argument is an operator: it takes both
operands off before it can complain, and puts them back as values that are offered to the stack anew.
On a valid stack that restores the machine (`putBack_of_valid`): the operands are words, so they are
kept as they are, and there is room for both where both have just been.
-/

namespace RpnCalculator

namespace Machine

variable {m : Machine} {left right : Int} {values : List Int}

/-- The machine with other values on its stack. -/
def withValues (m : Machine) (values : List Int) : Machine := { m with stack := ⟨values⟩ }

@[simp] theorem values_withValues : (m.withValues values).stack.values = values := rfl

theorem withValues_values (m : Machine) : m.withValues m.stack.values = m := rfl

/-! Offering a number. -/

theorem push_of_isFull (h : m.stack.isFull) (v : Number) : m.push v = .printing m [.overflow] := by
  simp [push, Stack.push, Stack.roomEvents, h]

theorem push_of_not_isFull (h : ¬ m.stack.isFull) (v : Number) :
    m.push v = .idle (m.withValues (v.saturate :: m.stack.values)) := by
  simp [push, Stack.push, Stack.roomEvents, h, Run.idle, Run.printing, withValues]

theorem push_withValues_of_lt (h : values.length < Stack.capacity) (v : Number) :
    (m.withValues values).push v = .idle (m.withValues (v.saturate :: values)) := by
  have hfull : ¬ (m.withValues values).stack.isFull := by
    rw [Stack.isFull_iff]
    exact Nat.not_le.2 h
  exact push_of_not_isFull hfull v

/-- Two words for which there is room are put back as they were. -/
theorem putBack_of_valid (h : (Stack.mk (right :: left :: values)).Valid) :
    (m.withValues values).putBack left right = .idle (m.withValues (right :: left :: values)) := by
  have hsize : values.length + 2 ≤ Stack.capacity := h.1
  have hleft : Word.clamp left = left := Word.clamp_of_fits (h.2 left (by simp))
  have hright : Word.clamp right = right := Word.clamp_of_fits (h.2 right (by simp))
  rw [putBack, push_withValues_of_lt (by omega), Run.idle_andThen, Number.saturate_integer, hleft,
    push_withValues_of_lt (by rw [List.length_cons]; omega), Number.saturate_integer, hright]

/-! Applying an operator. -/

theorem applyOperator_of_isShort (h : m.stack.isShort) (text : Text) :
    m.applyOperator text = .printing m [.underflow] := by
  simp [applyOperator, Stack.operandEvents, h]

theorem exists_values_of_not_isShort (h : ¬ m.stack.isShort) :
    ∃ right left values, m.stack.values = right :: left :: values := by
  rw [Stack.isShort_iff, Stack.size, Stack.operands] at h
  cases hvalues : m.stack.values with
  | nil => simp [hvalues] at h
  | cons right values =>
      cases values with
      | nil => simp [hvalues] at h
      | cons left values => exact ⟨right, left, values, rfl⟩

theorem pop_pop_of_values (hvalues : m.stack.values = right :: left :: values) :
    m.pop.pop = m.withValues values := by
  simp [pop, Stack.pop, withValues, hvalues]

/-- What an operator does to its two operands, by what it computes. -/
theorem applyOperator_symbol (hvalues : m.stack.values = right :: left :: values) (o : Operator) :
    m.applyOperator [o.symbol] =
      match o.apply left right with
      | .ok x => (m.withValues values).push (.real x)
      | .error (.complaint cause) =>
        ((m.withValues values).putBack left right).andThen fun next =>
          .failing next (.complaint cause)
      | .error failure => .failing (m.withValues values) failure := by
  have hshort : ¬ m.stack.isShort := by
    simp [Stack.isShort_iff, Stack.size, Stack.operands, hvalues]
  have hright : m.stack.top = right := by simp [Stack.top, hvalues]
  have hleft : m.stack.pop.top = left := by simp [Stack.top, hvalues]
  have hrest := pop_pop_of_values hvalues
  have htext : Operator.ofText? [o.symbol] = some o := Operator.ofText?_eq_some_iff.2 rfl
  rw [applyOperator, if_neg hshort]
  cases happly : o.apply left right with
  | ok x => simp only [hright, hleft, hrest, htext, happly]
  | error failure =>
      cases failure <;> simp only [hright, hleft, hrest, htext, happly]

theorem applyOperator_of_ok (hvalues : m.stack.values = right :: left :: values)
    (hroom : values.length < Stack.capacity) {o : Operator} {x : Binary64}
    (h : o.apply left right = .ok x) :
    m.applyOperator [o.symbol] = .idle (m.withValues (x.saturate :: values)) := by
  rw [applyOperator_symbol hvalues, h]
  exact push_withValues_of_lt hroom (.real x)

/-- A complaint changes nothing. -/
theorem applyOperator_of_complaint (hm : m.stack.Valid)
    (hvalues : m.stack.values = right :: left :: values) {o : Operator} {cause : Complaint}
    (h : o.apply left right = .error (.complaint cause)) :
    m.applyOperator [o.symbol] = .failing m (.complaint cause) := by
  have hvalid : (Stack.mk (right :: left :: values)).Valid := by rwa [← hvalues]
  rw [applyOperator_symbol hvalues, h]
  simp only [putBack_of_valid hvalid, Run.idle_andThen]
  rw [← hvalues, withValues_values]

/-- An arithmetic fault leaves both operands off the stack. -/
theorem applyOperator_of_fault (hvalues : m.stack.values = right :: left :: values) {o : Operator}
    (h : o.apply left right = .error .arithmeticFault) :
    m.applyOperator [o.symbol] = .failing (m.withValues values) .arithmeticFault := by
  rw [applyOperator_symbol hvalues, h]

/-! Drawing a number. -/

theorem pushRandom_of_isFull (h : m.stack.isFull) : m.pushRandom = .printing m [.overflow] := by
  simp [pushRandom, Stack.roomEvents, h]

/-- A number that is drawn is a word, so it is kept as it is. -/
theorem pushRandom_of_not_isFull (h : ¬ m.stack.isFull) :
    m.pushRandom =
      .idle { m with
        stack := ⟨(m.random.next : Int) :: m.stack.values⟩
        random := m.random.advance } := by
  have hfull : ¬ ({ m with random := m.random.advance } : Machine).stack.isFull := h
  have hnext : Word.clamp m.random.next = m.random.next := by
    have hlt := m.random.next_lt
    exact Word.clamp_of_fits (Word.fits_iff.2 (by omega))
  rw [pushRandom, if_neg h, push_of_not_isFull hfull, Number.saturate_integer, hnext]
  rfl

/-! What no operation changes. -/

/-- Comment mode, and whether conversions are printed. -/
def settings (m : Machine) : Bool × Bool := (m.comment, m.verbose)

/-- A numeral changes nothing but the stack. -/
theorem exists_withValues_pushLiteral (m : Machine) (base : Nat) (text : Text) :
    ∃ values, (m.pushLiteral base text).machine = m.withValues values := by
  rw [pushLiteral]
  split
  · exact ⟨_, rfl⟩
  · exact ⟨m.stack.values, rfl⟩

/-- An operator changes nothing but the stack, whether it fails or not. -/
theorem exists_withValues_applyOperator (m : Machine) (text : Text) :
    ∃ values, (m.applyOperator text).machine = m.withValues values := by
  rw [applyOperator]
  split
  · exact ⟨m.stack.values, rfl⟩
  · simp only
    split
    · exact ⟨_, rfl⟩
    · split
      · exact ⟨_, rfl⟩
      · exact ⟨_, rfl⟩
      · exact ⟨_, rfl⟩

theorem settings_pushLiteral (m : Machine) (base : Nat) (text : Text) :
    (m.pushLiteral base text).machine.settings = m.settings := by
  obtain ⟨values, hvalues⟩ := m.exists_withValues_pushLiteral base text
  rw [hvalues]
  rfl

theorem settings_applyOperator (m : Machine) (text : Text) :
    (m.applyOperator text).machine.settings = m.settings := by
  obtain ⟨values, hvalues⟩ := m.exists_withValues_applyOperator text
  rw [hvalues]
  rfl

theorem settings_obey (m : Machine) (text : Text) :
    (m.obey text).machine.settings = m.settings := by
  unfold obey
  split
  · rfl
  · rw [pushRandom]
    split <;> rfl
  · rfl
  · rfl

end Machine

end RpnCalculator
