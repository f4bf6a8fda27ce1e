import Mathlib.Algebra.Order.Group.Multiset
import RpnCalculator.Proofs.Expression.Item

/-!
# What conversion conserves

Conversion moves operators, and nothing but operators. `Pending.operands_read` and
`Pending.operators_read` say so of one piece that is read: its operand goes out at once, and its
operator goes out or waits, together with the others. So the operators that are out and those that
wait are at every moment the ones that have been read, and where none waits, they are all out. The
command that shows the stack is such a place: `Pending.operatorsBefore?_output` compares what
stands before it on both sides.
-/

namespace RpnCalculator

namespace Text

/-- The operators in a text, without their order. -/
def operators (text : Text) : Multiset Operator := ↑(text.filterMap Operator.ofSymbol?)

/-- The text before an occurrence of a character, of which the first has the number zero. -/
def before? (c : Char) : Nat → Text → Option Text
  | _, [] => none
  | 0, d :: ds => if d = c then some [] else (before? c 0 ds).map (d :: ·)
  | n + 1, d :: ds => (before? c (if d = c then n else n + 1) ds).map (d :: ·)

@[simp] theorem operators_nil : operators [] = 0 := rfl

@[simp] theorem operators_append (as bs : Text) :
    operators (as ++ bs) = operators as + operators bs := by
  rw [operators, List.filterMap_append, ← Multiset.coe_add]
  rfl

theorem operators_cons (c : Char) (cs : Text) : operators (c :: cs) = operators [c] + operators cs :=
  operators_append [c] cs

theorem operators_singleton (c : Char) : operators [c] = ↑(Operator.ofSymbol? c).toList := by
  cases h : Operator.ofSymbol? c <;> simp [operators, h]

/-- Digits are no operators. -/
theorem operators_of_isDigit {digits : Text} (h : ∀ c ∈ digits, c.isDigit) :
    operators digits = 0 := by
  rw [operators, List.filterMap_eq_nil_iff.2, Multiset.coe_nil]
  intro c hc
  refine Option.eq_none_iff_forall_ne_some.2 fun o ho => ?_
  rw [Operator.ofSymbol?_eq_some_iff.1 ho] at hc
  exact o.not_isDigit_symbol (h _ hc)

theorem count_operators (o : Operator) (text : Text) :
    (operators text).count o = text.count o.symbol := by
  induction text with
  | nil => rfl
  | cons c cs ih =>
      rw [operators_cons, Multiset.count_add, ih, operators_singleton, List.count_cons, add_comm]
      congr 1
      cases h : Operator.ofSymbol? c with
      | none =>
          have hne : c ≠ o.symbol := by
            rintro rfl
            simp at h
          simp [hne]
      | some p =>
          obtain rfl := Operator.ofSymbol?_eq_some_iff.1 h
          by_cases hp : p = o
          · simp [hp]
          · have hne : p.symbol ≠ o.symbol := mt Operator.symbol_injective hp
            simp [hne, Ne.symm hp]

variable {c : Char}

theorem before?_append_of_notMem {as : Text} (h : c ∉ as) (n : Nat) (bs : Text) :
    before? c n (as ++ bs) = (before? c n bs).map (as ++ ·) := by
  induction as with
  | nil => simp
  | cons a as ih =>
      have ha : a ≠ c := fun hac => h (hac ▸ List.mem_cons_self)
      have hrest := ih fun hc => h (List.mem_cons_of_mem _ hc)
      cases n with
      | zero => simp [before?, ha, hrest, Function.comp_def]
      | succ n => simp [before?, ha, hrest, Function.comp_def]

/-- The operators before an occurrence of a character, without their order. -/
def operatorsBefore? (c : Char) (n : Nat) (text : Text) : Option (Multiset Operator) :=
  (before? c n text).map operators

theorem operatorsBefore?_of_notMem {text : Text} (h : c ∉ text) (n : Nat) :
    operatorsBefore? c n text = none := by
  have hnone := before?_append_of_notMem h n []
  rw [List.append_nil] at hnone
  simp [operatorsBefore?, hnone, before?]

theorem operatorsBefore?_append_of_notMem {as : Text} (h : c ∉ as) (n : Nat) (bs : Text) :
    operatorsBefore? c n (as ++ bs) = (operatorsBefore? c n bs).map (operators as + ·) := by
  simp [operatorsBefore?, before?_append_of_notMem h, Function.comp_def]

theorem operatorsBefore?_zero_cons_self (cs : Text) :
    operatorsBefore? c 0 (c :: cs) = some 0 := by
  simp [operatorsBefore?, before?]

theorem operatorsBefore?_succ_cons_self (hc : Operator.ofSymbol? c = none) (n : Nat) (cs : Text) :
    operatorsBefore? c (n + 1) (c :: cs) = operatorsBefore? c n cs := by
  have hoperators : ∀ text, operators (c :: text) = operators text := fun text => by
    rw [operators_cons, operators_singleton, hc]
    exact zero_add _
  simp [operatorsBefore?, before?, Function.comp_def, hoperators]

end Text

/-- Whether a piece is an operator. -/
def Piece.isOperator : Piece → Bool
  | numeral _ => false
  | symbol c => (Operator.ofSymbol? c).isSome

/-- Whether a piece is neither an operator nor a separator of converted text. -/
def Piece.isOperand (piece : Piece) : Bool := ! piece.isOperator && piece != .symbol ' '

/-- What an item is apart from operators, that of its sign included. -/
def Item.operand? : Item → Option Piece
  | numeral _ digits => some (.numeral digits)
  | operator _ => none
  | symbol c => some (.symbol c)

/-- The separators are no operators. -/
theorem Item.operators_textOf_cons (item : Item) (items : List Item) :
    Text.operators (textOf (item :: items)) =
      Text.operators item.text + Text.operators (textOf items) := by
  have hseparator : Text.operators [' '] = 0 := rfl
  rw [textOf_cons, Text.operators_append, Text.operators_cons ' ', hseparator, zero_add]

namespace Pending

/-- The text that goes out from a state on: what becomes due as the pieces are read, and what waits
in the end. -/
def output (p : Pending) (previous : Option Piece) (rest : List Piece) : Text :=
  Item.textOf ((p.readAll previous rest).1 ++ (p.readAll previous rest).2.released)

theorem output_nil (p : Pending) (previous : Option Piece) :
    p.output previous [] = Item.textOf p.released := rfl

theorem output_cons (p : Pending) (previous : Option Piece) (piece : Piece) (rest : List Piece) :
    p.output previous (piece :: rest) =
      Item.textOf (p.read previous piece rest.head?).1 ++
        (p.read previous piece rest.head?).2.output (some piece) rest := by
  rw [output, readAll_cons, List.append_assoc, Item.textOf_append]
  rfl

variable (p : Pending)

theorem operators_textOf_released : Text.operators (Item.textOf p.released) = ↑p.operators := by
  obtain ⟨operators, negate⟩ := p
  induction operators with
  | nil => rfl
  | cons o operators ih =>
      rw [released] at ih
      rw [released, List.map_cons, Item.operators_textOf_cons, ih, Item.text,
        Text.operators_singleton, Operator.ofSymbol?_symbol]
      rfl

theorem operands_released : p.released.filterMap Item.operand? = [] := by
  simp [released, Item.operand?]

/-- A piece that is read leaves its operand behind, if it has one. -/
theorem operands_read (previous : Option Piece) (piece : Piece) (following : Option Piece) :
    (p.read previous piece following).1.filterMap Item.operand? =
      [piece].filter (! ·.isOperator) := by
  cases piece with
  | numeral digits =>
      rw [read, readNumeral]
      split <;> rfl
  | symbol c =>
      cases h : Operator.ofSymbol? c with
      | some o =>
          simp only [read, h, readOperator]
          split <;> simp [operands_released, Piece.isOperator, h]
      | none =>
          simp only [read, h, readSymbol]
          split <;> simp [operands_released, Piece.isOperator, Item.operand?, h]

/-- The operators that a piece makes due and those that wait after it are those that waited before
it, and its own. -/
theorem operators_read (previous : Option Piece) {piece : Piece} (h : piece.WellFormed)
    (following : Option Piece) :
    Text.operators (Item.textOf (p.read previous piece following).1) +
        ↑(p.read previous piece following).2.operators =
      ↑p.operators + Text.operators piece.text := by
  cases piece with
  | numeral digits =>
      have hdigits : Text.operators digits = 0 := Text.operators_of_isDigit h.2
      rw [read, readNumeral, Piece.text, hdigits, add_zero]
      split
      · rename_i o rest hnegate hoperators
        rw [Item.operators_textOf_cons, Item.text, Text.operators_cons, hdigits,
          Text.operators_singleton, Operator.ofSymbol?_symbol, hoperators]
        rfl
      · rw [Item.operators_textOf_cons, Item.text, hdigits]
        exact zero_add _
  | symbol c =>
      rw [Piece.text, Text.operators_singleton]
      cases ho : Operator.ofSymbol? c with
      | some o =>
          simp only [read, ho, readOperator]
          split
          · exact (zero_add _).trans (Multiset.coe_add [o] p.operators ▸ add_comm _ _)
          · rw [operators_textOf_released]
            rfl
      | none =>
          have hsymbol : Text.operators (Item.textOf [.symbol c]) = 0 := by
            rw [Item.operators_textOf_cons, Item.text, Text.operators_singleton, ho]
            rfl
          simp only [read, ho, readSymbol]
          split
          · rw [Item.textOf_append, Text.operators_append, operators_textOf_released, hsymbol, add_zero]
            rfl
          · rw [hsymbol]
            exact add_comm 0 _

/-! From one piece to all of them. -/

theorem operands_readAll (previous : Option Piece) (rest : List Piece) :
    (p.readAll previous rest).1.filterMap Item.operand? = rest.filter (! ·.isOperator) := by
  induction rest generalizing p previous with
  | nil => rfl
  | cons piece rest ih =>
      rw [readAll_cons, List.filterMap_append, operands_read, ih, ← List.filter_append,
        List.singleton_append]

/-- The operators that go out from a state on are those that wait in it and those that follow. -/
theorem operators_output (previous : Option Piece) {rest : List Piece}
    (hrest : ∀ piece ∈ rest, piece.WellFormed) :
    Text.operators (p.output previous rest) =
      ↑p.operators + Text.operators (rest.flatMap Piece.text) := by
  induction rest generalizing p previous with
  | nil => rw [output_nil, operators_textOf_released, List.flatMap_nil, Text.operators_nil, add_zero]
  | cons piece rest ih =>
      have hpiece := p.operators_read previous (hrest piece List.mem_cons_self) rest.head?
      have hlater := ih (p.read previous piece rest.head?).2 (some piece)
        fun other hother => hrest other (List.mem_cons_of_mem _ hother)
      rw [output_cons, List.flatMap_cons, Text.operators_append, Text.operators_append, hlater,
        ← add_assoc, hpiece, add_assoc]

/-! The command that shows the stack. -/

/-- The command goes out after all operators that wait, and none waits after it. -/
theorem read_displayCommand (previous following : Option Piece) :
    p.read previous (.symbol displayCommand) following =
      (p.released ++ [.symbol displayCommand], p.release) := rfl

theorem displayCommand_ne_symbol (o : Operator) : displayCommand ≠ o.symbol := by
  cases o <;> decide

theorem displayCommand_notMem_textOf_released :
    displayCommand ∉ Item.textOf p.released := by
  have hoperator : ∀ o ∈ p.operators, displayCommand ∉ (Item.operator o).text ++ [' '] := by
    intro o _ hmem
    rcases List.mem_cons.1 hmem with hsymbol | hspace
    · exact displayCommand_ne_symbol o hsymbol
    · exact absurd hspace (by decide)
  simpa [Item.textOf, released] using hoperator

/-- No piece but the command itself puts it out. -/
theorem displayCommand_notMem_textOf_read (previous : Option Piece) {piece : Piece}
    (h : piece.WellFormed) (hne : piece ≠ .symbol displayCommand) (following : Option Piece) :
    displayCommand ∉ Item.textOf (p.read previous piece following).1 := by
  cases piece with
  | numeral digits =>
      have hdigits : displayCommand ∉ digits := fun hmem => absurd (h.2 _ hmem) (by decide)
      have hspace : displayCommand ≠ ' ' := by decide
      rw [read, readNumeral]
      split
      · rename_i o rest hnegate hoperators
        simp [Item.text, hdigits, hspace, displayCommand_ne_symbol o]
      · simp [Item.text, hdigits, hspace]
  | symbol c =>
      cases ho : Operator.ofSymbol? c with
      | some o =>
          simp only [read, ho, readOperator]
          split
          · exact List.not_mem_nil
          · exact p.displayCommand_notMem_textOf_released
      | none =>
          have hc : c ≠ displayCommand := fun hc => hne (hc ▸ rfl)
          have hspace : displayCommand ≠ ' ' := by decide
          simp only [read, ho, readSymbol, if_neg hc]
          simp [Item.text, hspace, hc.symm]

/-- Before every occurrence of the command stand the operators that wait and those that have been
read, for all that wait go out before it and none waits after it. -/
theorem operatorsBefore?_output (n : Nat) (previous : Option Piece) {rest : List Piece}
    (hrest : ∀ piece ∈ rest, piece.WellFormed) :
    Text.operatorsBefore? displayCommand n (p.output previous rest) =
      (Text.operatorsBefore? displayCommand n (rest.flatMap Piece.text)).map
        ((p.operators : Multiset Operator) + ·) := by
  induction rest generalizing p previous n with
  | nil => exact Text.operatorsBefore?_of_notMem p.displayCommand_notMem_textOf_released n
  | cons piece rest ih =>
      have hpiece := hrest piece List.mem_cons_self
      have hlater (n : Nat) (q : Pending) := ih q n (some piece)
        fun other hother => hrest other (List.mem_cons_of_mem _ hother)
      by_cases hdisplay : piece = .symbol displayCommand
      · subst hdisplay
        have hout : p.output previous (.symbol displayCommand :: rest) =
            Item.textOf p.released ++ displayCommand ::
              ([' '] ++ p.release.output (some (.symbol displayCommand)) rest) := by
          rw [output_cons, read_displayCommand, Item.textOf_append]
          simp [Item.text]
        have hin : (Piece.symbol displayCommand :: rest).flatMap Piece.text =
            displayCommand :: rest.flatMap Piece.text := rfl
        rw [hout, hin,
          Text.operatorsBefore?_append_of_notMem p.displayCommand_notMem_textOf_released,
          operators_textOf_released]
        cases n with
        | zero => rw [Text.operatorsBefore?_zero_cons_self, Text.operatorsBefore?_zero_cons_self]
        | succ n =>
            have hseparator : displayCommand ∉ [' '] := by decide
            have hnone : Operator.ofSymbol? displayCommand = none := rfl
            rw [Text.operatorsBefore?_succ_cons_self hnone, Text.operatorsBefore?_succ_cons_self hnone,
              Text.operatorsBefore?_append_of_notMem hseparator, hlater]
            simp [Text.operators_singleton, Operator.ofSymbol?]
      · have hin : displayCommand ∉ piece.text := by
          cases piece with
          | numeral digits => exact fun hmem => absurd (hpiece.2 _ hmem) (by decide)
          | symbol c => simpa [Piece.text, eq_comm] using hdisplay
        have hout := p.displayCommand_notMem_textOf_read previous hpiece hdisplay rest.head?
        have hoperators := p.operators_read previous hpiece rest.head?
        rw [output_cons, List.flatMap_cons, Text.operatorsBefore?_append_of_notMem hout,
          Text.operatorsBefore?_append_of_notMem hin, hlater, Option.map_map, Option.map_map]
        simp only [Function.comp_def, ← add_assoc, hoperators]

end Pending

/-! The operands in converted text. -/

namespace Item

theorem filter_isOperand_pieces_text {item : Item} (h : item.WellFormed) :
    (pieces item.text).filter Piece.isOperand = item.operand?.toList.filter Piece.isOperand := by
  cases h with
  | numeral a =>
      have hminus : Piece.isOperand (.symbol '-') = false := rfl
      rw [Numeral.text_item, pieces_numeral_text, Numeral.pieces]
      split
      · rw [List.filter_cons_of_neg (by simp [hminus])]
        rfl
      · rfl
  | operator o =>
      rw [text, pieces_cons_of_not_isDigit o.not_isDigit_symbol]
      simp [operand?, Piece.isOperand, Piece.isOperator]
  | symbol hdigit hoperator =>
      rw [text, pieces_cons_of_not_isDigit hdigit]
      rfl

theorem filter_isOperand_pieces_textOf {items : List Item}
    (h : ∀ item ∈ items, item.WellFormed) :
    (pieces (textOf items)).filter Piece.isOperand =
      (items.filterMap operand?).filter Piece.isOperand := by
  induction items with
  | nil => rfl
  | cons item items ih =>
      have hitem := filter_isOperand_pieces_text (h item List.mem_cons_self)
      have hseparator : Piece.isOperand (.symbol ' ') = false := rfl
      have hcons : (item :: items).filterMap operand? =
          item.operand?.toList ++ items.filterMap operand? := by
        cases hoperand : item.operand? <;> simp [hoperand]
      rw [textOf_cons, pieces_append_cons (by decide), List.filter_append, hitem,
        List.filter_cons_of_neg (by simp [hseparator]),
        ih fun other hother => h other (List.mem_cons_of_mem _ hother), hcons, List.filter_append]

end Item

theorem operands_itemsOf (expression : Text) :
    (itemsOf expression).filterMap Item.operand? = (pieces expression).filter (! ·.isOperator) := by
  rw [itemsOf_eq, List.filterMap_append, Pending.operands_readAll, Pending.operands_released,
    List.append_nil]

theorem filter_isOperand_pieces_convert (expression : Text) :
    (pieces (convert expression)).filter Piece.isOperand =
      (pieces expression).filter Piece.isOperand := by
  rw [convert, Item.filter_isOperand_pieces_textOf (wellFormed_itemsOf expression),
    operands_itemsOf, List.filter_filter]
  congr 1
  funext piece
  cases h : piece.isOperator <;> simp [Piece.isOperand, h]

/-- Conversion neither loses nor invents nor reorders anything but operators, whatever the expression
is: its items hold the pieces that are no operators in their order, and so does their text, the
separators aside; each operator is written as often as before; and the operators before an
occurrence of the command that shows the stack are those that have stood before it. -/
theorem operands_and_operators_convert (expression : Text) :
    (itemsOf expression).filterMap Item.operand? =
        (pieces expression).filter (! ·.isOperator) ∧
      (pieces (convert expression)).filter Piece.isOperand =
        (pieces expression).filter Piece.isOperand ∧
      (∀ o : Operator, (convert expression).count o.symbol = expression.count o.symbol) ∧
      ∀ n, Text.operatorsBefore? 'd' n (convert expression) =
        Text.operatorsBefore? 'd' n expression := by
  have hpieces : ∀ piece ∈ pieces expression, piece.WellFormed := fun _ => wellFormed_of_mem_pieces
  refine ⟨operands_itemsOf expression, filter_isOperand_pieces_convert expression, ?_, ?_⟩
  · intro o
    have hoperators := Pending.empty.operators_output none hpieces
    rw [flatMap_text_pieces, Pending.empty, Multiset.coe_nil, zero_add] at hoperators
    rw [← Text.count_operators, ← Text.count_operators, ← hoperators]
    rfl
  · intro n
    have hbefore := Pending.empty.operatorsBefore?_output n none hpieces
    rw [flatMap_text_pieces] at hbefore
    exact hbefore.trans (by simp [Pending.empty, Pending.displayCommand])

end RpnCalculator
