import Mathlib.Data.List.TakeWhile
import RpnCalculator.Proofs.Expression.Item

/-!
# Release rules

Conversions that let operators wait differ in which of them become due when another operator comes
in. A `ReleaseRule` says that and nothing else, so conversions by two rules treat signs, numerals and
all other characters alike. Conversion as the calculator does it goes by `ReleaseRule.everything`
(`ReleaseRule.convert_everything`); the usual conversion goes by `ReleaseRule.tighter`.
-/

namespace RpnCalculator

/-- Which of the waiting operators, the one on top first, become due when an operator comes in, and
which are kept. They are taken from the top and none gets lost. -/
structure ReleaseRule where
  due : Operator → List Operator → List Operator
  kept : Operator → List Operator → List Operator
  due_append_kept : ∀ o operators, due o operators ++ kept o operators = operators

namespace ReleaseRule

/-- If the operator on top binds more tightly than the one that comes in, all of them become due. -/
def everything : ReleaseRule where
  due o operators :=
    if operators.head?.any fun top => o.precedence < top.precedence then operators else []
  kept o operators :=
    if operators.head?.any fun top => o.precedence < top.precedence then [] else operators
  due_append_kept o operators := by
    split
    · exact List.append_nil operators
    · rfl

/-- From the top down, those operators become due that bind more tightly than the one that comes
in. -/
def tighter : ReleaseRule where
  due o operators := operators.takeWhile fun top => o.precedence < top.precedence
  kept o operators := operators.dropWhile fun top => o.precedence < top.precedence
  due_append_kept _ _ := List.takeWhile_append_dropWhile

theorem everything_of_isDue {p : Pending} {o : Operator} (h : p.isDue o) :
    everything.due o p.operators = p.operators ∧ everything.kept o p.operators = [] :=
  ⟨if_pos h, if_pos h⟩

theorem everything_of_not_isDue {p : Pending} {o : Operator} (h : ¬ p.isDue o) :
    everything.due o p.operators = [] ∧ everything.kept o p.operators = p.operators :=
  ⟨if_neg h, if_neg h⟩

theorem tighter_of_forall {o : Operator} {operators : List Operator}
    (h : ∀ top ∈ operators, o.precedence < top.precedence) :
    tighter.due o operators = operators ∧ tighter.kept o operators = [] :=
  ⟨List.takeWhile_eq_self_iff.2 fun top htop => decide_eq_true (h top htop),
    List.dropWhile_eq_nil_iff.2 fun top htop => decide_eq_true (h top htop)⟩

theorem tighter_of_not_isDue {p : Pending} {o : Operator} (h : ¬ p.isDue o) :
    tighter.due o p.operators = [] ∧ tighter.kept o p.operators = p.operators := by
  rw [Pending.isDue] at h
  cases hoperators : p.operators with
  | nil => exact ⟨rfl, rfl⟩
  | cons top operators =>
      have htop : ¬ o.precedence < top.precedence := by simpa [hoperators] using h
      simp [tighter, htop]

/-- An operator that binds no more tightly than the one that comes in is kept. -/
theorem tighter_kept_ne_nil {o top : Operator} {operators : List Operator}
    (htop : top ∈ operators) (hle : top.precedence ≤ o.precedence) :
    tighter.kept o operators ≠ [] := by
  intro hnil
  have hlt := List.dropWhile_eq_nil_iff.1 hnil top htop
  exact absurd (of_decide_eq_true hlt) (Nat.not_lt.2 hle)

variable (rule : ReleaseRule)

/-- Reads an operator. As ever, a minus that is about to be taken as a sign releases nothing. -/
def readOperator (p : Pending) (o : Operator) (previous following : Option Piece) :
    List Item × Pending :=
  let negate := p.negateAfter o previous
  if negate && following.any Piece.isNumeral then ([], ⟨o :: p.operators, negate⟩)
  else ((rule.due o p.operators).map .operator, ⟨o :: rule.kept o p.operators, negate⟩)

/-- Reads a piece. -/
def read (p : Pending) (previous : Option Piece) (piece : Piece) (following : Option Piece) :
    List Item × Pending :=
  match piece with
  | .numeral digits => p.readNumeral digits
  | .symbol c =>
    match Operator.ofSymbol? c with
    | some o => rule.readOperator p o previous following
    | none => p.readSymbol c

/-- Reads all pieces that follow the piece `previous`. -/
def readAll (p : Pending) (previous : Option Piece) : List Piece → List Item × Pending
  | [] => ([], p)
  | piece :: rest =>
    let now := rule.read p previous piece rest.head?
    let later := readAll now.2 (some piece) rest
    (now.1 ++ later.1, later.2)

/-- The items of an expression. -/
def itemsOf (expression : Text) : List Item :=
  let read := rule.readAll .empty none (pieces expression)
  read.1 ++ read.2.released

/-- The converted form of an expression, each item followed by one space. -/
def convert (expression : Text) : Text := Item.textOf (rule.itemsOf expression)

theorem readAll_cons (p : Pending) (previous : Option Piece) (piece : Piece) (rest : List Piece) :
    rule.readAll p previous (piece :: rest) =
      ((rule.read p previous piece rest.head?).1 ++
          (rule.readAll (rule.read p previous piece rest.head?).2 (some piece) rest).1,
        (rule.readAll (rule.read p previous piece rest.head?).2 (some piece) rest).2) := rfl

/-! The rule of the calculator. -/

theorem readOperator_everything (p : Pending) (o : Operator) (previous following : Option Piece) :
    everything.readOperator p o previous following = p.readOperator o previous following := by
  rw [readOperator, Pending.readOperator]
  by_cases h : p.isDue o
  · obtain ⟨hdue, hkept⟩ := everything_of_isDue h
    simp [hdue, hkept, h, Pending.released]
  · obtain ⟨hdue, hkept⟩ := everything_of_not_isDue h
    simp [hdue, hkept, h]

theorem read_everything (p : Pending) (previous : Option Piece) (piece : Piece)
    (following : Option Piece) :
    everything.read p previous piece following = p.read previous piece following := by
  cases piece with
  | numeral digits => rfl
  | symbol c =>
      rw [read, Pending.read]
      cases Operator.ofSymbol? c with
      | some o => exact readOperator_everything p o previous following
      | none => rfl

theorem readAll_everything (p : Pending) (previous : Option Piece) (rest : List Piece) :
    everything.readAll p previous rest = p.readAll previous rest := by
  induction rest generalizing p previous with
  | nil => rfl
  | cons piece rest ih => rw [readAll_cons, read_everything, ih, Pending.readAll_cons]

theorem itemsOf_everything (expression : Text) :
    everything.itemsOf expression = RpnCalculator.itemsOf expression := by
  rw [itemsOf, readAll_everything, itemsOf_eq]

theorem convert_everything (expression : Text) :
    everything.convert expression = RpnCalculator.convert expression := by
  rw [convert, itemsOf_everything, RpnCalculator.convert]

end ReleaseRule

end RpnCalculator
