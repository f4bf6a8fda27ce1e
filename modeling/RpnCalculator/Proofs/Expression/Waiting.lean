import RpnCalculator.Proofs.Expression.Item

/-!
# The order in which operators wait

The operators that wait bind ever less tightly from the top down: an operator that binds more loosely
than the one on top does not come to wait above it, since it makes all of them due. A minus that is
about to be taken as a sign is the exception. It is put on top whatever waits there, and the next
piece, which is the numeral that takes it, leaves the others as they were before
(`Pending.Orderly`). So whatever makes operators due finds them in this order, and in this order
they come out.

A conversion is told here piece by piece, as the list of its readings (`Pending.readings`). The
piece that follows is part of a reading, and the exception is a matter of that piece.
-/

namespace RpnCalculator

/-- Whether each operator of a list binds no more tightly than those before it. -/
def Operator.Descending (operators : List Operator) : Prop :=
  operators.Pairwise fun o later => later.precedence ≤ o.precedence

instance (operators : List Operator) : Decidable (Operator.Descending operators) :=
  inferInstanceAs (Decidable (operators.Pairwise _))

/-- The operator that an item is. The one that a numeral has taken as its sign is part of the
numeral. -/
def Item.operator? : Item → Option Operator
  | operator o => some o
  | _ => none

/-- A piece that is read, with what waits before it and with the pieces on both sides of it. -/
structure Reading where
  pending : Pending
  previous : Option Piece
  piece : Piece
  following : Option Piece
deriving DecidableEq, Repr

namespace Reading

variable (r : Reading)

/-- The items that the piece makes due. -/
def items : List Item := (r.pending.read r.previous r.piece r.following).1

/-- What waits after the piece. -/
def next : Pending := (r.pending.read r.previous r.piece r.following).2

/-- Whether the piece is a minus that the numeral behind it is about to take as its sign. -/
def IsSign : Prop :=
  r.piece = .symbol '-' ∧ r.next.negate ∧ r.following.any Piece.isNumeral

instance : Decidable r.IsSign := inferInstanceAs (Decidable (_ ∧ _ ∧ _))

/-- Whether the minus on top is lent to the next piece: under it the operators are in order, and the
next piece is a numeral, which goes out with the minus as its sign and leaves them as they are. -/
def LendsTop : Prop :=
  ∃ lower digits, r.next.operators = .sub :: lower ∧ Operator.Descending lower ∧
    r.following = some (.numeral digits) ∧
      ∀ following, r.next.read (some r.piece) (.numeral digits) following =
        ([.numeral (some .sub) digits], ⟨lower, false⟩)

end Reading

namespace Pending

/-- The readings of all pieces that follow the piece `previous`. -/
def readings (p : Pending) (previous : Option Piece) : List Piece → List Reading
  | [] => []
  | piece :: rest =>
    let r : Reading := ⟨p, previous, piece, rest.head?⟩
    r :: r.next.readings (some piece) rest

theorem readings_cons (p : Pending) (previous : Option Piece) (piece : Piece) (rest : List Piece) :
    p.readings previous (piece :: rest) =
      ⟨p, previous, piece, rest.head?⟩ ::
        (Reading.next ⟨p, previous, piece, rest.head?⟩).readings (some piece) rest := rfl

theorem map_piece_readings (p : Pending) (previous : Option Piece) (rest : List Piece) :
    (p.readings previous rest).map Reading.piece = rest := by
  induction rest generalizing p previous with
  | nil => rfl
  | cons piece rest ih => rw [readings_cons, List.map_cons, ih]

theorem flatMap_items_readings (p : Pending) (previous : Option Piece) (rest : List Piece) :
    (p.readings previous rest).flatMap Reading.items = (p.readAll previous rest).1 := by
  induction rest generalizing p previous with
  | nil => rfl
  | cons piece rest ih =>
      rw [readings_cons, List.flatMap_cons, ih, readAll_cons]
      rfl

/-- Whether the operators that wait before a piece are in order, but for a minus on top that the
piece takes as its sign. -/
inductive Orderly : Pending → Option Piece → Prop
  | descending {p : Pending} {piece : Option Piece} (h : Operator.Descending p.operators) :
      Orderly p piece
  | lending {lower : List Operator} {digits : Text} (h : Operator.Descending lower) :
      Orderly ⟨.sub :: lower, true⟩ (some (.numeral digits))

variable {p : Pending} {o : Operator} {previous following : Option Piece}

theorem Orderly.descending_operators (h : p.Orderly following)
    (hnumeral : ¬ following.any Piece.isNumeral) : Operator.Descending p.operators := by
  cases h with
  | descending h => exact h
  | lending h => exact absurd rfl hnumeral

/-- A numeral takes nothing but the top. -/
theorem Orderly.descending_readNumeral {digits : Text} (h : p.Orderly (some (.numeral digits))) :
    Operator.Descending (p.readNumeral digits).2.operators := by
  cases h with
  | lending h => exact h
  | descending h =>
      rw [Pending.readNumeral]
      split
      · rename_i o rest hnegate hoperators
        rw [hoperators] at h
        exact (List.pairwise_cons.1 h).2
      · exact h

/-- An operator that makes nothing due may wait on top. -/
theorem descending_cons (h : Operator.Descending p.operators) (hdue : ¬ p.isDue o) :
    Operator.Descending (o :: p.operators) := by
  refine List.pairwise_cons.2 ⟨fun lower hlower => ?_, h⟩
  cases hoperators : p.operators with
  | nil => simp [hoperators] at hlower
  | cons top rest =>
      have htop : top.precedence ≤ o.precedence := by simpa [isDue, hoperators] using hdue
      rw [hoperators] at h hlower
      rcases List.mem_cons.1 hlower with rfl | hrest
      · exact htop
      · exact Nat.le_trans ((List.pairwise_cons.1 h).1 lower hrest) htop

/-- A minus that is about to be taken as a sign comes to wait on top of all others. -/
theorem readOperator_of_sign (hsign : p.negateAfter o previous && following.any Piece.isNumeral) :
    p.readOperator o previous following = ([], ⟨.sub :: p.operators, true⟩) := by
  rw [Bool.and_eq_true] at hsign
  obtain rfl := eq_sub_of_negateAfter hsign.1
  simp [readOperator, hsign]

theorem negate_readOperator (p : Pending) (o : Operator) (previous following : Option Piece) :
    (p.readOperator o previous following).2.negate = p.negateAfter o previous := by
  rw [readOperator]
  split <;> rfl

theorem descending_readOperator (h : Operator.Descending p.operators)
    (hsign : ¬ (p.negateAfter o previous && following.any Piece.isNumeral)) :
    Operator.Descending (p.readOperator o previous following).2.operators := by
  rw [readOperator]
  by_cases hdue : p.isDue o
  · rw [if_neg (by simp [hsign, hdue])]
    exact List.pairwise_singleton _ o
  · rw [if_pos (by simp [hdue])]
    exact descending_cons h hdue

theorem filterMap_operator?_released (p : Pending) :
    p.released.filterMap Item.operator? = p.operators := by
  rw [released, List.filterMap_map]
  exact List.filterMap_some

end Pending

/-! What one reading does to the order. -/

namespace Reading

variable {r : Reading} {p : Pending} {previous following : Option Piece} {c : Char}

theorem next_operator {o : Operator} (ho : Operator.ofSymbol? c = some o) :
    next ⟨p, previous, .symbol c, following⟩ = (p.readOperator o previous following).2 := by
  simp only [next, Pending.read, ho]

theorem isSign_operator {o : Operator} (ho : Operator.ofSymbol? c = some o) :
    IsSign ⟨p, previous, .symbol c, following⟩ ↔
      (p.negateAfter o previous && following.any Piece.isNumeral) = true := by
  have hminus : p.negateAfter o previous → Piece.symbol c = .symbol '-' := fun h => by
    rw [Operator.ofSymbol?_eq_some_iff.1 ho, Pending.eq_sub_of_negateAfter h]
    rfl
  rw [IsSign, next_operator ho, Pending.negate_readOperator, Bool.and_eq_true]
  exact and_iff_right_of_imp fun h => hminus h.1

/-- After any piece but a minus that is about to be taken as a sign the operators that wait are in
order. -/
theorem descending_next (h : r.pending.Orderly (some r.piece)) (hsign : ¬ r.IsSign) :
    Operator.Descending r.next.operators := by
  obtain ⟨p, previous, piece, following⟩ := r
  cases piece with
  | numeral digits => exact h.descending_readNumeral
  | symbol c =>
      have hoperators : Operator.Descending p.operators :=
        h.descending_operators (by simp [Piece.isNumeral])
      cases ho : Operator.ofSymbol? c with
      | some o =>
          rw [isSign_operator ho] at hsign
          rw [next_operator ho]
          exact Pending.descending_readOperator hoperators hsign
      | none =>
          simp only [next, Pending.read, ho, Pending.readSymbol]
          split
          · exact List.Pairwise.nil
          · exact hoperators

theorem lendsTop (h : r.pending.Orderly (some r.piece)) (hsign : r.IsSign) : r.LendsTop := by
  obtain ⟨p, previous, piece, following⟩ := r
  obtain rfl : piece = .symbol '-' := hsign.1
  have hoperators : Operator.Descending p.operators :=
    h.descending_operators (by simp [Piece.isNumeral])
  obtain ⟨digits, rfl⟩ : ∃ digits, following = some (.numeral digits) := by
    obtain ⟨piece, rfl, hpiece⟩ := (Option.any_eq_true _ _).1 hsign.2.2
    cases piece with
    | numeral digits => exact ⟨digits, rfl⟩
    | symbol c => cases hpiece
  have hminus : Operator.ofSymbol? '-' = some .sub := rfl
  have hnext : next ⟨p, previous, .symbol '-', some (.numeral digits)⟩ =
      ⟨.sub :: p.operators, true⟩ := by
    rw [next_operator hminus, Pending.readOperator_of_sign ((isSign_operator hminus).1 hsign)]
  refine ⟨p.operators, digits, ?_, hoperators, rfl, fun _ => ?_⟩
  · rw [hnext]
  · rw [hnext]
    rfl

/-- A piece makes all operators that wait due or none, and a numeral none. -/
theorem operators_items (r : Reading) :
    r.items.filterMap Item.operator? = [] ∨
      (r.items.filterMap Item.operator? = r.pending.operators ∧
        ¬ (some r.piece).any Piece.isNumeral) := by
  obtain ⟨p, previous, piece, following⟩ := r
  cases piece with
  | numeral digits =>
      refine .inl ?_
      rw [items, Pending.read, Pending.readNumeral]
      split <;> rfl
  | symbol c =>
      have hreleased := p.filterMap_operator?_released
      have hsymbol : ¬ (some (Piece.symbol c)).any Piece.isNumeral := by simp [Piece.isNumeral]
      cases ho : Operator.ofSymbol? c with
      | some o =>
          simp only [items, Pending.read, ho, Pending.readOperator]
          split
          · exact .inl rfl
          · exact .inr ⟨hreleased, hsymbol⟩
      | none =>
          simp only [items, Pending.read, ho, Pending.readSymbol]
          split
          · refine .inr ⟨?_, hsymbol⟩
            rw [List.filterMap_append, hreleased, List.filterMap_cons_none rfl, List.filterMap_nil,
              List.append_nil]
          · exact .inl rfl

/-- Operators become due in order. -/
theorem descending_items (h : r.pending.Orderly (some r.piece)) :
    Operator.Descending (r.items.filterMap Item.operator?) := by
  rcases r.operators_items with hnone | ⟨hall, hnumeral⟩
  · rw [hnone]
    exact List.Pairwise.nil
  · rw [hall]
    exact h.descending_operators hnumeral

/-- The next piece finds the operators in order again, but for a minus that it takes. -/
theorem orderly_next (h : r.pending.Orderly (some r.piece)) : r.next.Orderly r.following := by
  by_cases hsign : r.IsSign
  · obtain ⟨lower, digits, hoperators, hlower, hfollowing, -⟩ := lendsTop h hsign
    have hnext : r.next = ⟨.sub :: lower, true⟩ := by
      rw [← hoperators, ← hsign.2.1]
    rw [hnext, hfollowing]
    exact .lending hlower
  · exact .descending (descending_next h hsign)

end Reading

/-! From one reading to all of them. -/

namespace Pending

variable {p : Pending}

theorem Orderly.readings {rest : List Piece} (h : p.Orderly rest.head?) (previous : Option Piece) :
    ∀ r ∈ p.readings previous rest, r.pending.Orderly (some r.piece) := by
  induction rest generalizing p previous with
  | nil => exact List.forall_mem_nil _
  | cons piece rest ih =>
      rw [readings_cons, List.forall_mem_cons]
      exact ⟨h, ih (Reading.orderly_next (r := ⟨p, previous, piece, rest.head?⟩) h) (some piece)⟩

theorem Orderly.readAll {rest : List Piece} (h : p.Orderly rest.head?) (previous : Option Piece) :
    (p.readAll previous rest).2.Orderly none := by
  induction rest generalizing p previous with
  | nil => exact h
  | cons piece rest ih =>
      exact ih (Reading.orderly_next (r := ⟨p, previous, piece, rest.head?⟩) h) (some piece)

/-- Whatever the expression is, and whether or not an earlier one has left the flag raised: from the
top down, the operators that wait after a piece bind ever less tightly, but for a minus that the next
piece takes as its sign at once. A piece makes none of them due or all of those that have waited before
it, and these come out in the same order. So do those that wait in the end. -/
theorem descending_readings (negate : Bool) (expression : Text) :
    ((readings ⟨[], negate⟩ none (pieces expression)).map Reading.piece = pieces expression ∧
      (readings ⟨[], negate⟩ none (pieces expression)).flatMap Reading.items =
        (Pending.readAll ⟨[], negate⟩ none (pieces expression)).1) ∧
    (∀ r ∈ readings ⟨[], negate⟩ none (pieces expression),
      (¬ r.IsSign → Operator.Descending r.next.operators) ∧
      (r.IsSign → r.LendsTop) ∧
      (r.items.filterMap Item.operator? = [] ∨
        r.items.filterMap Item.operator? = r.pending.operators) ∧
      Operator.Descending (r.items.filterMap Item.operator?)) ∧
    Operator.Descending
      ((Pending.readAll ⟨[], negate⟩ none (pieces expression)).2.released.filterMap
        Item.operator?) := by
  have horderly : Orderly ⟨[], negate⟩ (pieces expression).head? := .descending List.Pairwise.nil
  refine ⟨⟨map_piece_readings _ _ _, flatMap_items_readings _ _ _⟩, fun r hr => ?_, ?_⟩
  · have hr := horderly.readings none r hr
    exact ⟨Reading.descending_next hr, Reading.lendsTop hr, r.operators_items.imp_right And.left,
      Reading.descending_items hr⟩
  · rw [filterMap_operator?_released]
    exact (horderly.readAll none).descending_operators (by simp)

/-- The minus before the `3` waits above the multiplication and is taken off before anything else is
read. -/
example :
    (readings ⟨[], false⟩ none (pieces "2*-3+1".toList)).map
        (fun r => (r.next.operators, decide r.IsSign)) =
      [([], false), ([.mul], false), ([.sub, .mul], true), ([.mul], false), ([.add], false),
        ([.add], false)] := by decide

end Pending

end RpnCalculator
