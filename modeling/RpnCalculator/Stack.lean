import RpnCalculator.Number
import RpnCalculator.Report

/-!
# The stack

A bounded stack of words. It is never at a loss: a value for which there is no room is dropped, and
an empty stack yields the least word. What such a case prints is given beside the operation, as a
list of events or as one event, so that each operation on the values is a plain function.

`Stack.Valid` says that the values are words and that there is room for them. Every operation keeps
it.
-/

namespace RpnCalculator

/-- A stack of integers. -/
@[ext] structure Stack where
  /-- The values, the top of the stack first. -/
  values : List Int
deriving DecidableEq, Repr

namespace Stack

/-- The greatest number of values. -/
def capacity : Nat := 23

/-- The number of values that an operator needs. -/
def operands : Nat := 2

/-- The stack without values. -/
def empty : Stack := ⟨[]⟩

instance : EmptyCollection Stack := ⟨empty⟩

instance : Inhabited Stack := ⟨empty⟩

/-- The number of values. -/
def size (s : Stack) : Nat := s.values.length

/-- The values, the lowest first. -/
def toList (s : Stack) : List Int := s.values.reverse

/-- Whether there is no room for one more value. -/
def isFull (s : Stack) : Bool := capacity ≤ s.size

/-- Whether there are too few values for an operator. -/
def isShort (s : Stack) : Bool := s.size < operands

/-- Puts the word kept of a number on top, or drops it if there is no room. -/
def push (s : Stack) (v : Number) : Stack :=
  if s.isFull then s else ⟨v.saturate :: s.values⟩

/-- The value on top, or the least word if there is none. -/
def top (s : Stack) : Int := s.values.headD Word.lowest

/-- The stack without the value on top. -/
def pop (s : Stack) : Stack := ⟨s.values.tail⟩

/-- What asking for room for one more value prints. -/
def roomEvents (s : Stack) : List Event := if s.isFull then [.overflow] else []

/-- What asking for the operands of an operator prints. -/
def operandEvents (s : Stack) : List Event := if s.isShort then [.underflow] else []

/-- What showing the value on top prints. -/
def topEvent (s : Stack) : Event :=
  match s.values with
  | [] => .emptyTop
  | value :: _ => .top value

/-- What showing all values prints. -/
def listingEvent (s : Stack) : Event :=
  match s.values with
  | [] => .emptyListing
  | _ :: _ => .listing s.toList

/-- A stack is valid when there is room for its values and each of them is a word. -/
def Valid (s : Stack) : Prop := s.size ≤ capacity ∧ ∀ value ∈ s.values, Word.Fits value

instance (s : Stack) : Decidable s.Valid :=
  inferInstanceAs (Decidable (s.size ≤ capacity ∧ ∀ value ∈ s.values, Word.Fits value))

theorem isFull_iff {s : Stack} : s.isFull ↔ capacity ≤ s.size := by
  simp [isFull]

theorem isShort_iff {s : Stack} : s.isShort ↔ s.size < operands := by
  simp [isShort]

theorem push_of_isFull {s : Stack} (h : s.isFull) (v : Number) : s.push v = s := by
  simp [push, h]

theorem push_of_not_isFull {s : Stack} (h : ¬ s.isFull) (v : Number) :
    s.push v = ⟨v.saturate :: s.values⟩ := by
  simp [push, h]

@[simp] theorem values_pop (s : Stack) : s.pop.values = s.values.tail := rfl

theorem valid_empty : empty.Valid := by decide

theorem Valid.push {s : Stack} (h : s.Valid) (v : Number) : (s.push v).Valid := by
  by_cases hfull : s.isFull
  · rwa [push_of_isFull hfull]
  · rw [push_of_not_isFull hfull]
    refine ⟨?_, ?_⟩
    · have hsize := mt isFull_iff.2 hfull
      simp only [size, List.length_cons, capacity] at hsize ⊢
      omega
    · intro value hvalue
      rcases List.mem_cons.1 hvalue with rfl | hvalue
      · exact v.fits_saturate
      · exact h.2 value hvalue

theorem Valid.pop {s : Stack} (h : s.Valid) : s.pop.Valid := by
  refine ⟨?_, fun value hvalue => h.2 value (List.mem_of_mem_tail hvalue)⟩
  have hsize := h.1
  simp only [size, values_pop, List.length_tail] at hsize ⊢
  omega

end Stack

end RpnCalculator
