import Mathlib.Data.List.Induction
import Mathlib.Data.Nat.Digits.Defs
import RpnCalculator.Proofs.Expression.Conservation
import RpnCalculator.Proofs.Machine.Flattening

/-!
# The value of a literal

`Numeral.written?` says what number a numeral writes by its digits alone, however many there are: in
base eight, in base ten, or none. Classification, base and clamping of the machine are other ways to
the same word (`Machine.feedWith_lexeme`). A numeral has that effect wherever in a line its turn
comes, on its own or inside an expression, where `numerals_convert` says which numerals there are.
A numeral that is too long to be read needs a line that is longer still
(`not_tooLong_of_mem_flatLexemes`).
-/

namespace RpnCalculator

/-- The value of a list of digits is that of Mathlib, which has the least significant first. -/
theorem Text.ofDigits_eq (base : Nat) (digits : List Nat) :
    ofDigits base digits = Nat.ofDigits base digits.reverse := by
  induction digits using List.reverseRecOn with
  | nil => rfl
  | append_singleton digits digit ih =>
      rw [ofDigits_append_singleton, ih, List.reverse_concat, Nat.ofDigits_cons, Nat.add_comm]

namespace Numeral

variable (a : Numeral)

/-- The number that a numeral writes in a base. -/
def inBase (base : Nat) : Int :=
  let magnitude := Nat.ofDigits base (a.digits.reverse.map fun c => c.toNat - '0'.toNat)
  if a.negative then -(magnitude : Int) else magnitude

/-- The number that a numeral writes. Two or more octal digits of which the first is a zero write it
in base eight; any other three or more digits of which the first is a zero write none. -/
def written? : Option Int :=
  if a.digits.head? = some '0' ∧ 2 ≤ a.digits.length ∧
      a.digits.all fun c => '0' ≤ c ∧ c ≤ '7' then
    some (a.inBase 8)
  else if a.digits.head? = some '0' ∧ 3 ≤ a.digits.length then none
  else some (a.inBase 10)

theorem exact_eq_inBase : a.exact = a.inBase a.base := by
  rw [exact, inBase, magnitude, Text.ofDigits_eq, List.map_reverse]

theorem isOctal_text_iff :
    Text.isOctal a.text ↔
      a.digits.head? = some '0' ∧ 2 ≤ a.digits.length ∧
        a.digits.all fun c => '0' ≤ c ∧ c ≤ '7' := by
  rw [Text.isOctal, dropMinus_text]
  split
  · rename_i c cs heq
    simp [heq, Text.isOctalDigit]
  · rename_i hne
    simp only [Bool.false_eq_true, false_iff]
    rintro ⟨hhead, hlength, -⟩
    obtain ⟨c, cs, hdigits⟩ := List.exists_cons_of_ne_nil a.digits_ne_nil
    obtain rfl : c = '0' := by simpa [hdigits] using hhead
    cases cs with
    | nil => simp [hdigits] at hlength
    | cons d ds => exact hne d ds hdigits

theorem isMalformed_text_iff :
    Text.isMalformed a.text ↔ a.digits.head? = some '0' ∧ 3 ≤ a.digits.length := by
  rw [Text.isMalformed, dropMinus_text]
  split
  · rename_i c d cs heq
    have hdigits : ∀ e ∈ c :: d :: cs, e.isDigit := fun e he =>
      a.isDigit_of_mem e (heq ▸ List.mem_cons_of_mem _ he)
    simpa [heq] using hdigits
  · rename_i hne
    simp only [Bool.false_eq_true, false_iff]
    rintro ⟨hhead, hlength⟩
    obtain ⟨c, cs, hdigits⟩ := List.exists_cons_of_ne_nil a.digits_ne_nil
    obtain rfl : c = '0' := by simpa [hdigits] using hhead
    cases cs with
    | nil => simp [hdigits] at hlength
    | cons d ds =>
        cases ds with
        | nil => simp [hdigits] at hlength
        | cons e es => exact hne d e es hdigits

/-- A numeral writes a number unless it is malformed, and its spelling tells which. -/
theorem written?_eq :
    a.written? = if a.lexeme.kind = .malformed then none else some a.exact := by
  simp only [written?, ← isOctal_text_iff, ← isMalformed_text_iff, lexeme, Lexeme.kind_ofWord,
    kind_text, exact_eq_inBase, base]
  by_cases hoctal : Text.isOctal a.text
  · simp [hoctal]
  · by_cases hmalformed : Text.isMalformed a.text
    · simp [hoctal, hmalformed]
    · simp [hoctal, hmalformed]

end Numeral

namespace Machine

/-- The machine with the word of the number that a numeral writes on top, if it writes one. -/
def withNumeral (m : Machine) (a : Numeral) : Machine :=
  match a.written? with
  | some n => m.withValues (Word.clamp n :: m.stack.values)
  | none => m

variable {evaluate : Machine → Text → Run} {m : Machine}

/-- With room on the stack a numeral that is not too long has the effect of pushing the word of what it
writes, and prints nothing. -/
theorem feedWith_lexeme (hm : m.comment = false) (hroom : m.stack.size < Stack.capacity)
    {a : Numeral} (hlong : ¬ a.lexeme.TooLong) :
    feedWith evaluate m a.lexeme = .idle (m.withNumeral a) := by
  rw [withNumeral, a.written?_eq]
  by_cases ha : a.lexeme.kind = .malformed
  · rw [if_pos ha, a.feedWith_of_malformed hm ha]
  · rw [if_neg ha, feedWith_numeral hm ha hlong hroom]
    rfl

/-- The word that a numeral is read as is the one that is kept of the number that it writes. -/
theorem literal?_of_written? {a : Numeral} {n : Int} (hlong : ¬ a.lexeme.TooLong)
    (h : a.written? = some n) : literal? a.base a.text = some (Number.integer n).saturate := by
  rw [a.written?_eq] at h
  split at h
  · cases h
  · rename_i ha
    obtain rfl := Option.some.inj h
    exact a.literal?_text ha hlong

end Machine

/-! The numerals of an expression. -/

/-- The digits of a piece, if it is a numeral. -/
def Piece.digits? : Piece → Option Text
  | numeral digits => some digits
  | symbol _ => none

/-- Whether a lexeme is of one of the kinds of numerals. -/
def Lexeme.isNumeral (x : Lexeme) : Bool := x.kind ∈ [Kind.octal, .malformed, .decimal]

theorem Numeral.isNumeral_lexeme (a : Numeral) : a.lexeme.isNumeral := by
  rw [Lexeme.isNumeral]
  rcases a.kind_and_base with ⟨hkind, _⟩ | ⟨hkind, _⟩ | ⟨hkind, _⟩ <;> simp [hkind]

namespace Item

theorem isNumeral_lexeme_operator (o : Operator) :
    (Item.operator o).lexeme.isNumeral = false := by
  simp [Lexeme.isNumeral, lexeme, text, kind_operator]

theorem isNumeral_lexeme_symbol {c : Char} (hdigit : ¬ c.isDigit)
    (hoperator : Operator.ofSymbol? c = none) : (Item.symbol c).lexeme.isNumeral = false := by
  simp [Lexeme.isNumeral, lexeme, text, kind_symbol hdigit hoperator]

/-- The numerals among well-formed items are lexemes of numerals, and the digits of an item are
those of its numeral. -/
theorem exists_numerals {items : List Item} (h : ∀ item ∈ items, item.WellFormed) :
    ∃ numerals : List Numeral,
      ((items.filter (! ·.isBlank)).map lexeme).filter Lexeme.isNumeral =
          numerals.map Numeral.lexeme ∧
        numerals.map Numeral.digits =
          (items.filterMap operand?).filterMap Piece.digits? := by
  induction items with
  | nil => exact ⟨[], rfl, rfl⟩
  | cons item items ih =>
      obtain ⟨numerals, hlexemes, hdigits⟩ := ih fun other hother =>
        h other (List.mem_cons_of_mem _ hother)
      cases h item List.mem_cons_self with
      | numeral a =>
          refine ⟨a :: numerals, ?_, ?_⟩
          · rw [List.filter_cons_of_pos (by simp [isBlank_item]), List.map_cons, lexeme_item,
              List.filter_cons_of_pos a.isNumeral_lexeme, hlexemes, List.map_cons]
          · simp [Numeral.item, operand?, Piece.digits?, hdigits]
      | operator o =>
          refine ⟨numerals, ?_, ?_⟩
          · rw [List.filter_cons_of_pos (by simp [isBlank]), List.map_cons,
              List.filter_cons_of_neg (by simp [isNumeral_lexeme_operator]), hlexemes]
          · simp [List.filterMap_cons, operand?, hdigits]
      | @symbol c hdigit hoperator =>
          -- A blank has no lexeme, and any other symbol has one of another kind.
          refine ⟨numerals, ?_, ?_⟩
          · rw [← hlexemes]
            by_cases hblank : (symbol c).isBlank
            · rw [List.filter_cons_of_neg (by simp [hblank])]
            · rw [List.filter_cons_of_pos (by simp [hblank]), List.map_cons,
                List.filter_cons_of_neg (by simp [isNumeral_lexeme_symbol hdigit hoperator])]
          · simp [List.filterMap_cons, operand?, Piece.digits?, hdigits]

end Item

/-- The numerals of a converted expression have the digits of the expression, run by run. -/
theorem numerals_convert (expression : Text) :
    ∃ numerals : List Numeral,
      (lexemes false (convert expression)).filter Lexeme.isNumeral = numerals.map Numeral.lexeme ∧
        numerals.map Numeral.digits = (pieces expression).filterMap Piece.digits? := by
  obtain ⟨numerals, hlexemes, hdigits⟩ := Item.exists_numerals (wellFormed_itemsOf expression)
  refine ⟨numerals, lexemes_convert expression ▸ hlexemes, ?_⟩
  rw [hdigits, operands_itemsOf, List.filterMap_filter]
  congr 1
  funext piece
  cases piece <;> simp [Piece.digits?, Piece.isOperator]

theorem Numeral.flatLexemes_text (a : Numeral) (comments : Bool) :
    flatLexemes comments a.text = [a.lexeme] := by
  have hkind : a.lexeme.kind ≠ .expression := by
    rcases a.kind_and_base with ⟨hkind, _⟩ | ⟨hkind, _⟩ | ⟨hkind, _⟩ <;> simp [hkind]
  rw [flatLexemes, a.lexemes_text, List.flatMap_singleton, Lexeme.flatten, if_neg hkind]

theorem Text.length_dropMinus_le (word : Text) : (dropMinus word).length ≤ word.length := by
  unfold dropMinus
  split <;> simp

/-- No numeral is too long in a line that has itself no more characters than digits are read. -/
theorem not_tooLong_of_mem_flatLexemes {comments : Bool} {line : Text} {x : Lexeme}
    (h : x ∈ flatLexemes comments line) (hline : line.length ≤ Text.digitLimit) : ¬ x.TooLong := by
  intro hlong
  obtain ⟨y, hy, hx⟩ := List.mem_flatMap.1 h
  have hword := Text.length_le_of_mem_words (mem_lexemes.1 hy).1
  have hdigits : Text.digitLimit < (Text.dropMinus x.text).length := hlong.2
  rw [Lexeme.flatten] at hx
  split at hx
  · obtain ⟨numerals, hlexemes, hpieces⟩ := numerals_convert y.text
    have hnumeral : x ∈ numerals.map Numeral.lexeme := by
      rw [← hlexemes, List.mem_filter]
      exact ⟨hx, by simp [Lexeme.isNumeral, hlong.1]⟩
    obtain ⟨a, ha, rfl⟩ := List.mem_map.1 hnumeral
    have hpiece : .numeral a.digits ∈ pieces y.text := by
      have hmem := List.mem_map_of_mem (f := Numeral.digits) ha
      rw [hpieces, List.mem_filterMap] at hmem
      obtain ⟨piece, hpiece, hdigits⟩ := hmem
      cases piece with
      | numeral digits => exact Option.some.inj hdigits ▸ hpiece
      | symbol c => cases hdigits
    have hlength := length_le_of_numeral_mem_pieces hpiece
    rw [Numeral.lexeme, Lexeme.text_ofWord, a.dropMinus_text] at hdigits
    omega
  · obtain rfl := List.mem_singleton.1 hx
    have hdrop := Text.length_dropMinus_le x.text
    omega

namespace Machine

variable {m : Machine}

/-- With room on the stack a literal pushes the word of the number that it writes, or is ignored where
it writes none, and in neither case prints anything; and the word that it is read as is the one that
the stack keeps of that number. It has no other effect where it stands in a longer line or in the
converted form of an expression, whose numerals have the digits of the expression, run by run. The
exception is a decimal literal that is too long: wherever its turn comes it ends the line, and nothing
else happens. -/
theorem process_numeral (hm : m.comment = false) (hroom : m.stack.size < Stack.capacity)
    (a : Numeral) (comments : Bool) :
    m.process a.text comments =
        (if a.lexeme.TooLong then .failing m (.invalidNumeral 10 a.text)
        else .idle (m.withNumeral a)) ∧
      (¬ a.lexeme.TooLong → ∀ n, a.written? = some n →
        literal? a.base a.text = some (Number.integer n).saturate) ∧
        (∀ first line before after events,
          instructions comments line = before ++ .act a.lexeme :: after →
            loop execute first [] before = .printing m events →
              first.process line comments =
                if a.lexeme.TooLong then ⟨m, events, some (.invalidNumeral 10 a.text)⟩
                else loop execute (m.withNumeral a) events after) ∧
          ∀ expression, ∃ numerals : List Numeral,
            (lexemes false (convert expression)).filter Lexeme.isNumeral =
                numerals.map Numeral.lexeme ∧
              numerals.map Numeral.digits = (pieces expression).filterMap Piece.digits? := by
  refine ⟨?_, fun hlong n => literal?_of_written? hlong, ?_, numerals_convert⟩
  · rw [process, a.lexemes_text, run, runWith_singleton]
    split
    · rename_i hlong
      rw [a.feedWith_of_tooLong hm hlong]
      rfl
    · rename_i hlong
      rw [feedWith_lexeme hm hroom hlong, Run.contain_idle]
  · intro first line before after events hline hbefore
    rw [process_eq_loop_execute, hline]
    split
    · rename_i hlong
      have hact : m.execute (.act a.lexeme) = .failing m (.invalidNumeral 10 a.text) := by
        rw [execute, act, a.feedWith_of_tooLong hm hlong]
      exact loop_of_failing hbefore hact (by simp) after
    · rename_i hlong
      have hact : m.execute (.act a.lexeme) = .idle (m.withNumeral a) := by
        rw [execute, act, feedWith_lexeme hm hroom hlong]
      exact loop_of_idle hbefore hact after

/-- The numeral `-020000000001`, which is below the least word by one. -/
def belowLowest : Numeral :=
  ⟨true, ['0', '2', '0', '0', '0', '0', '0', '0', '0', '0', '0', '1'], by simp, by simp⟩

/-- The last place of the stack takes the least word, on its own and inside the expression
`7--020000000001`. A numeral that is too long is not read. -/
theorem process_numeral_belowLowest :
    ((ofSeed 1 true).withValues (List.replicate 22 7)).process "-020000000001".toList true =
        .idle ((ofSeed 1 true).withValues (-2147483648 :: List.replicate 22 7)) ∧
      ((ofSeed 1 true).withValues (List.replicate 21 7)).process "7--020000000001".toList true =
        loop execute ((ofSeed 1 true).withValues (-2147483648 :: List.replicate 22 7))
          [.conversion "7--020000000001".toList "7 -020000000001 - ".toList]
          [.act ⟨.operator, ['-']⟩] ∧
        (ofSeed 1 true).process (List.replicate 4301 '1') true =
          .failing (ofSeed 1 true) (.invalidNumeral 10 (List.replicate 4301 '1')) := by
  have hshort : ¬ belowLowest.lexeme.TooLong := by decide
  obtain ⟨hprocess, -, hline, -⟩ := process_numeral
    (m := (ofSeed 1 true).withValues (List.replicate 22 7)) rfl (by decide) belowLowest true
  obtain ⟨hlong, -⟩ := process_numeral (m := ofSeed 1 true) rfl (by decide) Numeral.tooManyOnes true
  have hinside := hline ((ofSeed 1 true).withValues (List.replicate 21 7))
    "7--020000000001".toList [.announce "7--020000000001".toList, .act ⟨.decimal, ['7']⟩]
    [.act ⟨.operator, ['-']⟩] [.conversion "7--020000000001".toList "7 -020000000001 - ".toList]
    (by rfl) (by rfl)
  rw [if_neg hshort] at hprocess hinside
  rw [if_pos Numeral.tooLong_tooManyOnes] at hlong
  exact ⟨hprocess, hinside, hlong⟩

end Machine

end RpnCalculator
