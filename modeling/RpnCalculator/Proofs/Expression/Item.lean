import RpnCalculator.Expression.Conversion
import RpnCalculator.Proofs.Numeral

/-!
# What a converted expression consists of

A converter takes whatever operator waits on top as the sign of a numeral, and that is always a
minus: `Pending.Signed` says so, and every piece that is read keeps it. Hence all items of a
converted expression are well formed, and such items come back as they are when their text is cut
into lexemes (`lexemes_textOf`), but for those that are blanks. None of these lexemes is an
expression again, nor a comment mark (`kind_of_mem_lexemes_convert`).
-/

namespace RpnCalculator

/-- A numeral as an item. -/
def Numeral.item (a : Numeral) : Item :=
  .numeral (if a.negative then some .sub else none) a.digits

@[simp] theorem Numeral.text_item (a : Numeral) : a.item.text = a.text := by
  rw [Numeral.item, Numeral.text]
  cases a.negative <;> rfl

namespace Item

/-- An item is well formed when it is a numeral with no sign or a minus, an operator, or a character
that is neither a digit nor an operator. -/
inductive WellFormed : Item → Prop
  | numeral (a : Numeral) : WellFormed a.item
  | operator (o : Operator) : WellFormed (.operator o)
  | symbol {c : Char} (hdigit : ¬ c.isDigit) (hoperator : Operator.ofSymbol? c = none) :
      WellFormed (.symbol c)

/-- The lexeme that an item is where there are no comment marks. -/
def lexeme (item : Item) : Lexeme := .ofWord false item.text

theorem lexeme_item (a : Numeral) : a.item.lexeme = a.lexeme := by
  rw [lexeme, Numeral.text_item, Numeral.lexeme]

/-- Whether an item is a blank. -/
def isBlank : Item → Bool
  | symbol c => Text.isBlank c
  | _ => false

theorem isBlank_item (a : Numeral) : a.item.isBlank = false := rfl

end Item

theorem Text.not_isBlank_of_isDigit {c : Char} (h : c.isDigit) : ¬ isBlank c := by
  intro hblank
  simp only [isBlank, Bool.or_eq_true, beq_iff_eq] at hblank
  rcases hblank with ((((rfl | rfl) | rfl) | rfl) | rfl) | rfl <;> exact absurd h (by decide)

theorem Operator.not_isDigit_symbol (o : Operator) : ¬ o.symbol.isDigit := by
  cases o <;> decide

theorem Operator.not_isBlank_symbol (o : Operator) : ¬ Text.isBlank o.symbol := by
  cases o <;> decide

namespace Numeral

theorem text_ne_nil (a : Numeral) : a.text ≠ [] := by
  rw [text]
  split
  · simp
  · exact a.digits_ne_nil

theorem not_isBlank_of_mem_text (a : Numeral) {c : Char} (hc : c ∈ a.text) : ¬ Text.isBlank c := by
  have hdigits : ∀ d ∈ a.digits, ¬ Text.isBlank d :=
    fun d hd => Text.not_isBlank_of_isDigit (a.isDigit_of_mem d hd)
  unfold text at hc
  split at hc
  · rcases List.mem_cons.1 hc with rfl | hc
    · decide
    · exact hdigits c hc
  · exact hdigits c hc

theorem words_text (a : Numeral) : Text.words a.text = [a.text] :=
  Text.words_eq_singleton a.text_ne_nil fun _ => a.not_isBlank_of_mem_text

theorem lexemes_text (a : Numeral) (comments : Bool) : lexemes comments a.text = [a.lexeme] := by
  rw [lexemes, a.words_text, List.map_singleton, a.ofWord_text]

end Numeral

namespace Item

theorem words_text {item : Item} (h : item.WellFormed) :
    Text.words item.text = if item.isBlank then [] else [item.text] := by
  cases h with
  | numeral a =>
      rw [isBlank_item, Numeral.text_item]
      exact a.words_text
  | operator o =>
      refine Text.words_eq_singleton (by simp [text]) fun c hc => ?_
      obtain rfl := List.mem_singleton.1 hc
      exact o.not_isBlank_symbol
  | symbol hdigit hoperator =>
      rename_i c
      by_cases hc : Text.isBlank c
      · rw [isBlank, if_pos hc]
        exact Text.words_cons_of_isBlank hc []
      · rw [isBlank, if_neg hc]
        refine Text.words_eq_singleton (by simp [text]) fun d hd => ?_
        obtain rfl := List.mem_singleton.1 hd
        exact hc

/-- The text of well-formed items has the items as its words, without those that are blanks. -/
theorem words_textOf {items : List Item} (h : ∀ item ∈ items, item.WellFormed) :
    Text.words (textOf items) = (items.filter (! ·.isBlank)).map text := by
  induction items with
  | nil => rfl
  | cons item items ih =>
      have hhead := words_text (h item List.mem_cons_self)
      have htail := ih fun other hother => h other (List.mem_cons_of_mem _ hother)
      rw [textOf_cons, Text.words_append_cons (by decide), hhead, htail]
      cases hblank : item.isBlank <;> simp [hblank]

theorem lexemes_textOf {items : List Item} (h : ∀ item ∈ items, item.WellFormed) :
    lexemes false (textOf items) = (items.filter (! ·.isBlank)).map lexeme := by
  rw [lexemes, words_textOf h, List.map_map]
  rfl

theorem kind_operator (comments : Bool) (o : Operator) :
    Kind.ofWord comments [o.symbol] = .operator := by
  cases o <;> rfl

theorem kind_symbol {c : Char} (hdigit : ¬ c.isDigit) (hoperator : Operator.ofSymbol? c = none) :
    Kind.ofWord false [c] = .character := by
  have hminus : c ≠ '-' := by
    rintro rfl
    simp [Operator.ofSymbol?] at hoperator
  have hdrop : Text.dropMinus [c] = [c] := by
    unfold Text.dropMinus
    split
    · rename_i heq
      exact absurd (List.cons.inj heq).1 hminus
    · rfl
  have hdecimal : ¬ Text.isDecimal [c] := by
    rw [Text.isDecimal_iff, hdrop]
    exact fun h => hdigit (h.2 c List.mem_cons_self)
  simp [Kind.ofWord_of_not_isDecimal hdecimal, Text.isOperator, Operator.ofText?, hoperator]

/-- A well-formed item is no expression on its own, and no comment mark where there are none. -/
theorem kind_lexeme_ne {item : Item} (h : item.WellFormed) :
    item.lexeme.kind ≠ .expression ∧ item.lexeme.kind ≠ .comment := by
  rw [lexeme, Lexeme.kind_ofWord]
  cases h with
  | numeral a =>
      rw [Numeral.text_item, a.kind_text]
      split
      · simp
      · split <;> simp
  | operator o => simp [text, kind_operator]
  | symbol hdigit hoperator => simp [text, kind_symbol hdigit hoperator]

end Item

namespace Piece

/-- A piece is well formed when it is a run of digits or a character that is no digit. -/
def WellFormed : Piece → Prop
  | numeral digits => digits ≠ [] ∧ ∀ c ∈ digits, c.isDigit
  | symbol c => ¬ c.isDigit

end Piece

theorem wellFormed_of_mem_pieces {expression : Text} {piece : Piece}
    (h : piece ∈ pieces expression) : piece.WellFormed := by
  cases piece with
  | numeral digits => exact isDigit_of_numeral_mem_pieces h
  | symbol c => exact not_isDigit_of_symbol_mem_pieces h

/-- The pieces of a numeral. -/
def Numeral.pieces (a : Numeral) : List Piece :=
  if a.negative then [.symbol '-', .numeral a.digits] else [.numeral a.digits]

theorem pieces_numeral_text (a : Numeral) : pieces a.text = a.pieces := by
  have hdigits := pieces_of_isDigit a.digits_ne_nil a.isDigit_of_mem
  unfold Numeral.text Numeral.pieces
  split
  · rw [pieces_cons_of_not_isDigit (by decide), hdigits]
  · exact hdigits

namespace Pending

/-- Where a sign is due and some operator waits, the one on top is a minus. -/
def Signed (p : Pending) : Prop := p.negate → ∀ o ∈ p.operators.head?, o = .sub

theorem signed_of_operators_eq_nil {p : Pending} (h : p.operators = []) : p.Signed := by
  simp [Signed, h]

variable {p : Pending}

/-- An operator raises the flag only if it is a minus. -/
theorem eq_sub_of_negateAfter {o : Operator} {previous : Option Piece}
    (h : p.negateAfter o previous) : o = .sub := by
  simp only [negateAfter, Bool.and_eq_true, beq_iff_eq] at h
  exact h.1.1

/-- The operator that raises the flag is on top. -/
theorem signed_readOperator (o : Operator) (previous following : Option Piece) :
    (p.readOperator o previous following).2.Signed := by
  have hsub : p.negateAfter o previous → o = .sub := eq_sub_of_negateAfter
  unfold readOperator
  simp only
  split <;> simpa [Signed] using hsub

theorem Signed.readNumeral (h : p.Signed) (digits : Text) : (p.readNumeral digits).2.Signed := by
  rw [Pending.readNumeral]
  split
  · simp [Signed]
  · exact h

theorem Signed.readSymbol (h : p.Signed) (c : Char) : (p.readSymbol c).2.Signed := by
  rw [Pending.readSymbol]
  split
  · exact signed_of_operators_eq_nil rfl
  · exact h

theorem Signed.read (h : p.Signed) (previous : Option Piece) (piece : Piece)
    (following : Option Piece) : (p.read previous piece following).2.Signed := by
  cases piece with
  | numeral digits => exact h.readNumeral digits
  | symbol c =>
      unfold Pending.read
      simp only
      split
      · exact signed_readOperator _ previous following
      · exact h.readSymbol c

theorem wellFormed_released (p : Pending) : ∀ item ∈ p.released, item.WellFormed := by
  intro item hitem
  obtain ⟨o, _, rfl⟩ := List.mem_map.1 hitem
  exact .operator o

theorem Signed.wellFormed_readNumeral (h : p.Signed) {digits : Text}
    (hdigits : (Piece.numeral digits).WellFormed) :
    ∀ item ∈ (p.readNumeral digits).1, item.WellFormed := by
  intro item hitem
  unfold Pending.readNumeral at hitem
  split at hitem
  · rename_i o rest hnegate hoperators
    obtain rfl : o = .sub := h hnegate o (by simp [hoperators])
    obtain rfl := List.mem_singleton.1 hitem
    exact .numeral ⟨true, digits, hdigits.1, hdigits.2⟩
  · obtain rfl := List.mem_singleton.1 hitem
    exact .numeral ⟨false, digits, hdigits.1, hdigits.2⟩

theorem Signed.wellFormed_read (h : p.Signed) (previous : Option Piece) {piece : Piece}
    (hpiece : piece.WellFormed) (following : Option Piece) :
    ∀ item ∈ (p.read previous piece following).1, item.WellFormed := by
  intro item hitem
  cases piece with
  | numeral digits => exact h.wellFormed_readNumeral hpiece item hitem
  | symbol c =>
      unfold Pending.read at hitem
      cases ho : Operator.ofSymbol? c with
      | some o =>
          simp only [ho, readOperator] at hitem
          split at hitem
          · simp at hitem
          · exact p.wellFormed_released item hitem
      | none =>
          have hsymbol : (Item.symbol c).WellFormed := .symbol hpiece ho
          simp only [ho, Pending.readSymbol] at hitem
          split at hitem
          · rcases List.mem_append.1 hitem with hitem | hitem
            · exact p.wellFormed_released item hitem
            · rwa [List.mem_singleton.1 hitem]
          · rwa [List.mem_singleton.1 hitem]

/-- Reading pieces makes well-formed items due only. -/
theorem Signed.wellFormed_readAll (h : p.Signed) (previous : Option Piece) {rest : List Piece}
    (hrest : ∀ piece ∈ rest, piece.WellFormed) :
    ∀ item ∈ (p.readAll previous rest).1, item.WellFormed := by
  induction rest generalizing p previous with
  | nil => simp
  | cons piece rest ih =>
      intro item hitem
      rw [readAll_cons] at hitem
      rcases List.mem_append.1 hitem with hnow | hlater
      · exact h.wellFormed_read previous (hrest piece List.mem_cons_self) _ item hnow
      · have hnext := h.read previous piece rest.head?
        exact ih hnext _ (fun other hother => hrest other (List.mem_cons_of_mem _ hother)) item hlater

end Pending

/-- The items that one more expression adds to those of a converter. -/
def Converter.added (c : Converter) (expression : Text) : List Item :=
  (c.pending.readAll none (pieces expression)).1 ++
    (c.pending.readAll none (pieces expression)).2.released

/-- The items that an expression adds are well formed, whatever it is, if the flag that earlier
expressions have left agrees with the operators that wait. -/
theorem Converter.wellFormed_added {c : Converter} (h : c.pending.Signed) (expression : Text) :
    ∀ item ∈ c.added expression, item.WellFormed := by
  intro item hitem
  rcases List.mem_append.1 hitem with hread | hreleased
  · exact h.wellFormed_readAll none (fun _ => wellFormed_of_mem_pieces) item hread
  · exact Pending.wellFormed_released _ item hreleased

theorem itemsOf_eq (expression : Text) :
    itemsOf expression =
      (Pending.empty.readAll none (pieces expression)).1 ++
        (Pending.empty.readAll none (pieces expression)).2.released := rfl

/-- The items of an expression are well formed, whatever the expression is. -/
theorem wellFormed_itemsOf (expression : Text) :
    ∀ item ∈ itemsOf expression, item.WellFormed :=
  Converter.wellFormed_added (c := .empty) (Pending.signed_of_operators_eq_nil rfl) expression

theorem lexemes_convert (expression : Text) :
    lexemes false (convert expression) =
      ((itemsOf expression).filter (! ·.isBlank)).map Item.lexeme :=
  Item.lexemes_textOf (wellFormed_itemsOf expression)

/-- A converted expression holds no expression, and no comment mark as the machine reads it. -/
theorem kind_of_mem_lexemes_convert {expression : Text} {x : Lexeme}
    (h : x ∈ lexemes false (convert expression)) :
    x.kind ≠ .expression ∧ x.kind ≠ .comment := by
  rw [lexemes_convert] at h
  obtain ⟨item, hitem, rfl⟩ := List.mem_map.1 h
  exact Item.kind_lexeme_ne (wellFormed_itemsOf expression item (List.mem_filter.1 hitem).1)

namespace Item

/-- A numeral among well-formed items is a numeral as lines spell it. -/
theorem WellFormed.exists_eq_item {sign : Option Operator} {digits : Text}
    (h : (Item.numeral sign digits).WellFormed) : ∃ a : Numeral, Item.numeral sign digits = a.item := by
  generalize hitem : Item.numeral sign digits = item at h ⊢
  cases h with
  | numeral a => exact ⟨a, rfl⟩
  | operator o => cases hitem
  | symbol hdigit hoperator => cases hitem

/-- The operator that a numeral has taken as its sign is a minus. -/
theorem WellFormed.eq_sub_of_sign {o : Operator} {digits : Text}
    (h : (Item.numeral (some o) digits).WellFormed) : o = .sub := by
  obtain ⟨a, ha⟩ := h.exists_eq_item
  have hsign : some o = if a.negative then some Operator.sub else none := (Item.numeral.inj ha).1
  split at hsign
  · exact Option.some.inj hsign
  · cases hsign

/-- A well-formed item is written as one character that is no digit, or as a numeral. -/
theorem WellFormed.text_eq {item : Item} (h : item.WellFormed) :
    (∃ c : Char, ¬ c.isDigit ∧ item.text = [c]) ∨ ∃ a : Numeral, item.text = a.text := by
  cases h with
  | numeral a => exact .inr ⟨a, a.text_item⟩
  | operator o => exact .inl ⟨o.symbol, o.not_isDigit_symbol, rfl⟩
  | symbol hdigit hoperator => exact .inl ⟨_, hdigit, rfl⟩

/-- A numeral is a lexeme of a numeral kind. -/
theorem WellFormed.kind_lexeme_numeral {sign : Option Operator} {digits : Text}
    (h : (Item.numeral sign digits).WellFormed) :
    (Item.numeral sign digits).lexeme.kind ∈ [Kind.octal, .malformed, .decimal] := by
  obtain ⟨a, ha⟩ := h.exists_eq_item
  rw [ha, lexeme_item]
  rcases a.kind_and_base with ⟨hkind, _⟩ | ⟨hkind, _⟩ | ⟨hkind, _⟩ <;> simp [hkind]

end Item

namespace Converter

/-- Every expression that a converter takes up while no operator waits is converted to text whose
lexemes are the items that it adds, without the blanks among them, whether or not an earlier
expression has left the flag raised: a numeral takes no operator but a minus as its sign, hence every
item is a character that is no digit or a numeral, none of the lexemes is an expression or a comment
mark, and those of the numerals are of the numeral kinds. -/
theorem lexemes_added (c : Converter) (hc : c.pending.operators = []) (expression : Text) :
    (c.add expression).items = c.items ++ c.added expression ∧
      (c.add expression).text = c.text ++ Item.textOf (c.added expression) ∧
      (∀ o digits, .numeral (some o) digits ∈ c.added expression → o = .sub) ∧
      (∀ item ∈ c.added expression,
        (∃ d : Char, ¬ d.isDigit ∧ item.text = [d]) ∨ ∃ a : Numeral, item.text = a.text) ∧
      lexemes false (Item.textOf (c.added expression)) =
        ((c.added expression).filter (! ·.isBlank)).map Item.lexeme ∧
      (∀ x ∈ lexemes false (Item.textOf (c.added expression)),
        x.kind ≠ .expression ∧ x.kind ≠ .comment) ∧
      ∀ sign digits, .numeral sign digits ∈ c.added expression →
        (Item.numeral sign digits).lexeme.kind ∈ [Kind.octal, .malformed, .decimal] := by
  have hadded := wellFormed_added (Pending.signed_of_operators_eq_nil hc) expression
  have hlexemes := Item.lexemes_textOf hadded
  refine ⟨c.items_add expression, Item.textOf_append _ _, ?_, ?_, hlexemes, ?_, ?_⟩
  · exact fun o digits hitem => (hadded _ hitem).eq_sub_of_sign
  · exact fun item hitem => (hadded item hitem).text_eq
  · intro x hx
    rw [hlexemes] at hx
    obtain ⟨item, hitem, rfl⟩ := List.mem_map.1 hx
    exact Item.kind_lexeme_ne (hadded item (List.mem_filter.1 hitem).1)
  · exact fun sign digits hitem => (hadded _ hitem).kind_lexeme_numeral

/-- The expression `-` on its own leaves the flag raised, and a later `2 *-3#` is lexed all the
same. -/
theorem lexemes_added_of_raised :
    (empty.add ['-']).pending = ⟨[], true⟩ ∧
      lexemes false (Item.textOf ((empty.add ['-']).added "2 *-3#".toList)) =
        [⟨.decimal, ['2']⟩, ⟨.decimal, ['-', '3']⟩, ⟨.character, ['#']⟩, ⟨.operator, ['*']⟩] :=
  ⟨by decide, ((empty.add ['-']).lexemes_added rfl "2 *-3#".toList).2.2.2.2.1.trans (by decide)⟩

end Converter

end RpnCalculator
