import Mathlib.Algebra.Group.Nat.Defs
import Mathlib.Tactic.SplitIfs
import RpnCalculator.Text.Numeral
import RpnCalculator.Text.Quoted

/-!
# Quoted texts can be told apart

Between the quotation marks a text is escaped one character at a time, and no escape is the beginning
of another: `Text.readEscaped?` reads the first character back whatever follows it. The mark in front
says which of the two quotation marks is escaped, so different texts have different quoted forms
(`Text.quoted_injective`). All characters of a quoted text are printable, hence none of them is a tab
or ends a line (`Text.isPrintable_of_mem_quoted`).
-/

namespace RpnCalculator

namespace Text

/-! Hexadecimal digits. -/

/-- The value of a hexadecimal digit. -/
def hexDigitValue (c : Char) : Nat :=
  if c.isDigit then c.toNat - '0'.toNat else c.toNat - 'a'.toNat + 10

/-- The number that hexadecimal digits write. -/
def readHexadecimal (digits : Text) : Nat := ofDigits 16 (digits.map hexDigitValue)

theorem hexDigitValue_digitChar : ∀ d < 16, hexDigitValue (Nat.digitChar d) = d := by decide

theorem ofDigits_replicate_zero_append (base k : Nat) (digits : List Nat) :
    ofDigits base (List.replicate k 0 ++ digits) = ofDigits base digits := by
  induction k with
  | zero => rfl
  | succ k ih => simpa [List.replicate_succ, ofDigits] using ih

/-- The hexadecimal form of a number consists of digits less than sixteen that are worth it. -/
theorem exists_toDigits_eq (n : Nat) :
    ∃ digits, Nat.toDigits 16 n = digits.map Nat.digitChar ∧ (∀ d ∈ digits, d < 16) ∧
      ofDigits 16 digits = n := by
  induction n using Nat.strongRecOn with
  | ind n ih =>
      by_cases hn : n < 16
      · exact ⟨[n], Nat.toDigits_of_lt_base hn, by simpa using hn, by simp [ofDigits]⟩
      · obtain ⟨digits, hdigits, hlt, hvalue⟩ := ih (n / 16) (by omega)
        refine ⟨digits ++ [n % 16], ?_, ?_, ?_⟩
        · rw [Nat.toDigits_of_base_le (by decide) (by omega), hdigits, List.map_append]
          rfl
        · have hlast : n % 16 < 16 := Nat.mod_lt n (by decide)
          simpa [or_imp, forall_and] using And.intro hlt hlast
        · rw [ofDigits_append_singleton, hvalue]
          omega

theorem exists_hexadecimal_eq (width n : Nat) :
    ∃ digits, hexadecimal width n = digits.map Nat.digitChar ∧ (∀ d ∈ digits, d < 16) ∧
      ofDigits 16 digits = n := by
  obtain ⟨digits, hdigits, hlt, hvalue⟩ := exists_toDigits_eq n
  refine ⟨List.replicate (width - (Nat.toDigits 16 n).length) 0 ++ digits, ?_, ?_, ?_⟩
  · rw [hexadecimal, List.leftpad, List.map_append, List.map_replicate, hdigits]
    rfl
  · intro d hd
    rcases List.mem_append.1 hd with hd | hd
    · rw [List.eq_of_mem_replicate hd]
      decide
    · exact hlt d hd
  · rw [ofDigits_replicate_zero_append, hvalue]

theorem readHexadecimal_hexadecimal (width n : Nat) :
    readHexadecimal (hexadecimal width n) = n := by
  obtain ⟨digits, hdigits, hlt, hvalue⟩ := exists_hexadecimal_eq width n
  have hmap : (digits.map Nat.digitChar).map hexDigitValue = digits := by
    rw [List.map_map]
    exact (List.map_congr_left fun d hd => hexDigitValue_digitChar d (hlt d hd)).trans
      (List.map_id digits)
  rw [readHexadecimal, hdigits, hmap, hvalue]

theorem length_hexadecimal {width n : Nat} (hwidth : 0 < width) (hn : n < 16 ^ width) :
    (hexadecimal width n).length = width := by
  have hlength := (Nat.length_toDigits_le_iff (n := n) (by decide : 1 < 16) hwidth).2 hn
  rw [hexadecimal, List.length_leftpad]
  exact Nat.max_eq_left hlength

/-! Escapes. -/

/-- How many digits follow the letter of an escape that has a code point. -/
def codeWidth? : Char → Option Nat
  | 'x' => some 2
  | 'u' => some 4
  | 'U' => some 8
  | _ => none

/-- The character that the letter of any other escape stands for. -/
def ofShortEscape? : Char → Option Char
  | 't' => some '\t'
  | 'n' => some '\n'
  | 'r' => some '\r'
  | '\\' => some '\\'
  | '\'' => some '\''
  | '"' => some '"'
  | _ => none

/-- Reads the first character of an escaped text: the character, and the text behind its escape. -/
def readEscaped? : Text → Option (Char × Text)
  | [] => none
  | ['\\'] => none
  | '\\' :: letter :: rest =>
    match codeWidth? letter with
    | some width =>
      if rest.length < width then none
      else some (Char.ofNat (readHexadecimal (rest.take width)), rest.drop width)
    | none => (ofShortEscape? letter).map (·, rest)
  | c :: rest => some (c, rest)

theorem readEscaped?_cons {c : Char} (hc : c ≠ '\\') (rest : Text) :
    readEscaped? (c :: rest) = some (c, rest) := by
  rw [readEscaped?]
  · exact fun h => absurd h hc
  · exact fun _ _ h => absurd h hc

theorem readEscaped?_short {letter c : Char} (hcode : codeWidth? letter = none)
    (hc : ofShortEscape? letter = some c) (rest : Text) :
    readEscaped? ('\\' :: letter :: rest) = some (c, rest) := by
  simp [readEscaped?, hcode, hc]

theorem readEscaped?_code {letter c : Char} {width : Nat} (hletter : codeWidth? letter = some width)
    (hwidth : 0 < width) (hc : c.toNat < 16 ^ width) (rest : Text) :
    readEscaped? ('\\' :: letter :: (hexadecimal width c.toNat ++ rest)) = some (c, rest) := by
  have hlength := length_hexadecimal hwidth hc
  have hroom : ¬ (hexadecimal width c.toNat ++ rest).length < width := by
    rw [List.length_append]
    omega
  simp only [readEscaped?, hletter, if_neg hroom]
  rw [List.take_left' hlength, List.drop_left' hlength, readHexadecimal_hexadecimal,
    Char.ofNat_toNat]

/-- What an escape with a code point looks like. -/
theorem exists_escapeCode_eq (c : Char) :
    ∃ letter width, escapeCode c.toNat = '\\' :: letter :: hexadecimal width c.toNat ∧
      codeWidth? letter = some width ∧ 0 < width ∧ c.toNat < 16 ^ width := by
  have hvalid : c.toNat < 0xd800 ∨ (0xdfff < c.toNat ∧ c.toNat < 0x110000) := c.valid
  unfold escapeCode
  split_ifs with hbyte hplane
  · exact ⟨'x', 2, rfl, rfl, by decide, by omega⟩
  · exact ⟨'u', 4, rfl, rfl, by decide, by omega⟩
  · exact ⟨'U', 8, rfl, rfl, by decide, by omega⟩

variable {mark : Char}

/-- What a character between quotation marks is written as: a backslash and one letter, or itself if
it is printable, or an escape with its code point. -/
theorem escape_cases (hmark : mark = '\'' ∨ mark = '"') (c : Char) :
    (∃ letter, escape mark c = ['\\', letter] ∧ codeWidth? letter = none ∧
        ofShortEscape? letter = some c) ∨
      (escape mark c = [c] ∧ c ≠ '\\' ∧ isPrintable c) ∨
        ∃ letter width, escape mark c = '\\' :: letter :: hexadecimal width c.toNat ∧
          codeWidth? letter = some width ∧ 0 < width ∧ c.toNat < 16 ^ width := by
  unfold escape
  split_ifs with hc htab hfeed hreturn hprintable
  · rcases hc with rfl | rfl
    · rcases hmark with rfl | rfl <;> exact .inl ⟨_, rfl, rfl, rfl⟩
    · exact .inl ⟨_, rfl, rfl, rfl⟩
  · exact .inl ⟨'t', rfl, rfl, htab ▸ rfl⟩
  · exact .inl ⟨'n', rfl, rfl, hfeed ▸ rfl⟩
  · exact .inl ⟨'r', rfl, rfl, hreturn ▸ rfl⟩
  · exact .inr (.inl ⟨rfl, (not_or.1 hc).2, hprintable⟩)
  · exact .inr (.inr (exists_escapeCode_eq c))

/-- An escape is read back whatever follows it. -/
theorem readEscaped?_escape_append (hmark : mark = '\'' ∨ mark = '"') (c : Char) (rest : Text) :
    readEscaped? (escape mark c ++ rest) = some (c, rest) := by
  rcases escape_cases hmark c with ⟨letter, hescape, hcode, hletter⟩ | ⟨hescape, hc, -⟩ |
    ⟨letter, width, hescape, hletter, hwidth, hc⟩
  · rw [hescape]
    exact readEscaped?_short hcode hletter rest
  · rw [hescape]
    exact readEscaped?_cons hc rest
  · rw [hescape]
    exact readEscaped?_code hletter hwidth hc rest

theorem flatMap_escape_injective (hmark : mark = '\'' ∨ mark = '"') {text other : Text}
    (h : text.flatMap (escape mark) = other.flatMap (escape mark)) : text = other := by
  have hcons (c : Char) (cs : Text) :
      readEscaped? ((c :: cs).flatMap (escape mark)) = some (c, cs.flatMap (escape mark)) := by
    rw [List.flatMap_cons, readEscaped?_escape_append hmark]
  induction text generalizing other with
  | nil =>
      cases other with
      | nil => rfl
      | cons d ds =>
          rw [List.flatMap_nil] at h
          have hread := hcons d ds
          rw [← h] at hread
          cases hread
  | cons c cs ih =>
      cases other with
      | nil =>
          have hread := hcons c cs
          rw [h] at hread
          cases hread
      | cons d ds =>
          have hread := hcons c cs
          rw [h, hcons, Option.some.injEq, Prod.mk.injEq] at hread
          rw [hread.1, ih hread.2.symm]

theorem quotationMark_eq (text : Text) : quotationMark text = '\'' ∨ quotationMark text = '"' := by
  unfold quotationMark
  split
  · exact .inr rfl
  · exact .inl rfl

/-- Different texts have different quoted forms. -/
theorem quoted_injective {text other : Text} (h : quoted text = quoted other) : text = other := by
  obtain ⟨hmark, htail⟩ := List.cons.inj h
  rw [hmark] at htail
  exact flatMap_escape_injective (quotationMark_eq other) (List.append_cancel_right htail)

/-! Printable characters. -/

/-- Whether a character is one of the visible ASCII characters or the space. -/
def isGraphic (c : Char) : Bool := 0x20 ≤ c.toNat && c.toNat < 0x7f

theorem isPrintable_of_isGraphic {c : Char} (h : isGraphic c) : isPrintable c := by
  have hranges : ∀ range ∈ unprintableRanges, range.2 < 0x20 ∨ 0x7f ≤ range.1 := by
    decide +kernel
  simp only [isGraphic, Bool.and_eq_true, decide_eq_true_eq] at h
  refine List.all_eq_true.2 fun range hrange => ?_
  have hrange := hranges range hrange
  simp only [Bool.or_eq_true, decide_eq_true_eq]
  omega

theorem isPrintable_of_all {text : Text} (h : text.all isGraphic) {c : Char} (hc : c ∈ text) :
    isPrintable c :=
  isPrintable_of_isGraphic (List.all_eq_true.1 h c hc)

theorem isPrintable_of_mem_hexadecimal {width n : Nat} {c : Char} (h : c ∈ hexadecimal width n) :
    isPrintable c := by
  have hdigit : ∀ d < 16, isGraphic (Nat.digitChar d) := by decide
  obtain ⟨digits, hdigits, hlt, -⟩ := exists_hexadecimal_eq width n
  rw [hdigits] at h
  obtain ⟨d, hd, rfl⟩ := List.mem_map.1 h
  exact isPrintable_of_isGraphic (hdigit d (hlt d hd))

/-- The letters of escapes are printable. -/
theorem isPrintable_of_letter {letter : Char}
    (h : (codeWidth? letter).isSome ∨ (ofShortEscape? letter).isSome) : isPrintable letter := by
  have hcode : (codeWidth? letter).isSome → letter ∈ ['x', 'u', 'U'] := by
    unfold codeWidth?
    split <;> simp
  have hshort : (ofShortEscape? letter).isSome → letter ∈ ['t', 'n', 'r', '\\', '\'', '"'] := by
    unfold ofShortEscape?
    split <;> simp
  rcases h with h | h
  · exact isPrintable_of_all (by decide) (hcode h)
  · exact isPrintable_of_all (by decide) (hshort h)

theorem isPrintable_of_mem_escape (hmark : mark = '\'' ∨ mark = '"') {c d : Char}
    (h : d ∈ escape mark c) : isPrintable d := by
  have hbackslash : isPrintable '\\' := isPrintable_of_isGraphic (by decide)
  rcases escape_cases hmark c with ⟨letter, hescape, -, hletter⟩ | ⟨hescape, -, hc⟩ |
    ⟨letter, width, hescape, hletter, -, -⟩
  · rw [hescape] at h
    rcases List.mem_cons.1 h with rfl | h
    · exact hbackslash
    · obtain rfl := List.mem_singleton.1 h
      exact isPrintable_of_letter (.inr (Option.isSome_of_eq_some hletter))
  · rw [hescape] at h
    rwa [List.mem_singleton.1 h]
  · rw [hescape] at h
    rcases List.mem_cons.1 h with rfl | h
    · exact hbackslash
    · rcases List.mem_cons.1 h with rfl | h
      · exact isPrintable_of_letter (.inl (Option.isSome_of_eq_some hletter))
      · exact isPrintable_of_mem_hexadecimal h

theorem isPrintable_of_mem_quoted {text : Text} {d : Char} (h : d ∈ quoted text) :
    isPrintable d := by
  have hmark := quotationMark_eq text
  have hprintable : isPrintable (quotationMark text) := by
    rcases hmark with h | h <;> rw [h] <;> exact isPrintable_of_isGraphic (by decide)
  rw [quoted, List.mem_append, List.mem_cons, List.mem_singleton] at h
  rcases h with (rfl | h) | rfl
  · exact hprintable
  · obtain ⟨c, -, h⟩ := List.mem_flatMap.1 h
    exact isPrintable_of_mem_escape hmark h
  · exact hprintable

end Text

end RpnCalculator
