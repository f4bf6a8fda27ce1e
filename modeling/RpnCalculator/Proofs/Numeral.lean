import RpnCalculator.Machine.Step

/-!
# Signed numerals

A `Numeral` is a numeral as lines spell it: a run of digits, with a minus sign before it or not. Its
spelling tells its base, and `value` is the word of the number that it writes in that base. The words
of the three numeral kinds are exactly the texts of numerals, so what is said here of a `Numeral`
holds of every such lexeme: it has a value in its base (`read?_text`), the two ways of bringing it
into range agree (`literal?_text`), and unless it is malformed the machine pushes that value. The
exception is a decimal numeral with more digits than are read (`Lexeme.TooLong`): it is a lexeme like
any other, but the machine cannot read it.
-/

namespace RpnCalculator

/-- A run of digits, negated or not. -/
structure Numeral where
  negative : Bool
  digits : Text
  digits_ne_nil : digits ≠ []
  isDigit_of_mem : ∀ c ∈ digits, c.isDigit

namespace Text

theorem isDigit_and_lt_of_isOctalDigit {c : Char} (h : isOctalDigit c) :
    c.isDigit ∧ c.toNat - '0'.toNat < 8 := by
  simp only [isOctalDigit, Bool.and_eq_true, decide_eq_true_eq, Char.le_def,
    UInt32.le_iff_toNat_le] at h
  have hlow : 48 ≤ c.toNat := h.1
  have hhigh : c.toNat ≤ 55 := h.2
  refine ⟨?_, ?_⟩
  · simp only [Char.isDigit, Bool.and_eq_true, decide_eq_true_eq, ge_iff_le,
      UInt32.le_iff_toNat_le]
    exact ⟨hlow, Nat.le_trans hhigh (by decide)⟩
  · change c.toNat - 48 < 8
    omega

theorem lt_ten_of_isDigit {c : Char} (h : c.isDigit) : c.toNat - '0'.toNat < 10 := by
  simp only [Char.isDigit, Bool.and_eq_true, decide_eq_true_eq, ge_iff_le,
    UInt32.le_iff_toNat_le] at h
  have hhigh : c.toNat ≤ 57 := h.2
  change c.toNat - 48 < 10
  omega

theorem isDecimal_iff {word : Text} :
    isDecimal word ↔ dropMinus word ≠ [] ∧ ∀ c ∈ dropMinus word, c.isDigit := by
  rw [isDecimal]
  split
  · rename_i h
    simp [h]
  · rename_i c cs h
    simp [h]

theorem isDecimal_of_isOctal {word : Text} (h : isOctal word) : isDecimal word := by
  unfold isOctal at h
  split at h
  · rename_i c cs heq
    rw [isDecimal_iff, heq]
    refine ⟨by simp, fun d hd => ?_⟩
    rcases List.mem_cons.1 hd with rfl | hd
    · rfl
    · exact (isDigit_and_lt_of_isOctalDigit (List.all_eq_true.1 h d hd)).1
  · cases h

theorem isDecimal_of_isMalformed {word : Text} (h : isMalformed word) : isDecimal word := by
  unfold isMalformed at h
  split at h
  · rename_i c d cs heq
    rw [isDecimal_iff, heq]
    refine ⟨by simp, fun e he => ?_⟩
    rcases List.mem_cons.1 he with rfl | he
    · rfl
    · exact List.all_eq_true.1 h e he
  · cases h

theorem eq_minus_or_isDigit_of_mem_decimal {n : Int} {c : Char} (h : c ∈ decimal n) :
    c = '-' ∨ c.isDigit := by
  unfold decimal at h
  split at h
  · rcases List.mem_cons.1 h with rfl | h
    · exact .inl rfl
    · exact .inr (isDigit_and_lt_of_mem_toDigits h).1
  · exact .inr (isDigit_and_lt_of_mem_toDigits h).1

end Text

theorem Kind.ofWord_of_not_isDecimal {word : Text} (h : ¬ Text.isDecimal word) (comments : Bool) :
    Kind.ofWord comments word =
      if Text.isOperator word then .operator
      else if comments && word == ['#'] then .comment
      else if word.length == 1 then .character else .expression := by
  have hoctal : ¬ Text.isOctal word := mt Text.isDecimal_of_isOctal h
  have hmalformed : ¬ Text.isMalformed word := mt Text.isDecimal_of_isMalformed h
  simp [Kind.ofWord, h, hoctal, hmalformed]

/-- A word of several characters is an expression, unless it is a numeral. -/
theorem Kind.ofWord_eq_expression {word : Text} (h : ¬ Text.isDecimal word)
    (hlength : 2 ≤ word.length) (comments : Bool) : Kind.ofWord comments word = .expression := by
  have hoperator : ¬ Text.isOperator word := by
    intro hsome
    obtain ⟨o, ho⟩ := Option.isSome_iff_exists.1 hsome
    rw [Operator.ofText?_eq_some_iff.1 ho] at hlength
    simp at hlength
  have hmark : word ≠ ['#'] := by
    rintro rfl
    simp at hlength
  have hone : word.length ≠ 1 := by omega
  rw [Kind.ofWord_of_not_isDecimal h]
  simp [hoperator, hmark, hone]

/-- Whether a lexeme is a decimal numeral with more digits than are read. -/
def Lexeme.TooLong (x : Lexeme) : Prop :=
  x.kind = .decimal ∧ Text.digitLimit < (Text.dropMinus x.text).length

instance (x : Lexeme) : Decidable x.TooLong := inferInstanceAs (Decidable (_ ∧ _))

namespace Numeral

variable (a : Numeral)

/-- The characters of a numeral. -/
def text : Text := if a.negative then '-' :: a.digits else a.digits

/-- The base that the spelling of a numeral tells. -/
def base : Nat := if Text.isOctal a.text then 8 else 10

/-- The number that the digits write, as large as it may be. -/
def magnitude : Nat := Text.ofDigits a.base (a.digits.map fun c => c.toNat - '0'.toNat)

/-- The number that a numeral writes, as large as it may be. -/
def exact : Int := if a.negative then -(a.magnitude : Int) else a.magnitude

/-- The word of a numeral. -/
def value : Int := Word.clamp a.exact

theorem head?_digits_ne : a.digits.head? ≠ some '-' := by
  intro h
  have hdigit := a.isDigit_of_mem '-' (List.mem_of_mem_head? h)
  exact absurd hdigit (by decide)

theorem head?_text : a.text.head? = some '-' ↔ a.negative := by
  rw [text]
  split
  · rename_i h
    simp [h]
  · rename_i h
    simpa [h] using a.head?_digits_ne

theorem dropMinus_text_append (rest : Text) :
    Text.dropMinus (a.text ++ rest) = a.digits ++ rest := by
  rw [text]
  split
  · rfl
  · obtain ⟨c, cs, hdigits⟩ := List.exists_cons_of_ne_nil a.digits_ne_nil
    have hne : c ≠ '-' := by simpa [hdigits] using a.head?_digits_ne
    rw [hdigits, List.cons_append]
    unfold Text.dropMinus
    split
    · rename_i heq
      exact absurd (List.cons.inj heq).1 hne
    · rfl

theorem dropMinus_text : Text.dropMinus a.text = a.digits := by
  simpa using a.dropMinus_text_append []

theorem isDecimal_text : Text.isDecimal a.text := by
  rw [Text.isDecimal_iff, dropMinus_text]
  exact ⟨a.digits_ne_nil, a.isDigit_of_mem⟩

/-- The words of the decimal class, which has the other two inside it, are the texts of numerals. -/
theorem exists_text_eq {word : Text} (h : Text.isDecimal word) : ∃ a : Numeral, a.text = word := by
  obtain ⟨hne, hdigits⟩ := Text.isDecimal_iff.1 h
  cases word with
  | nil => exact absurd rfl hne
  | cons c cs =>
      by_cases hc : c = '-'
      · subst hc
        exact ⟨⟨true, cs, hne, hdigits⟩, rfl⟩
      · have hdrop : Text.dropMinus (c :: cs) = c :: cs := by
          unfold Text.dropMinus
          split
          · rename_i heq
            exact absurd (List.cons.inj heq).1 hc
          · rfl
        rw [hdrop] at hne hdigits
        exact ⟨⟨false, c :: cs, hne, hdigits⟩, rfl⟩

theorem isDigit_and_lt_base {c : Char} (hc : c ∈ a.digits) :
    c.isDigit ∧ c.toNat - '0'.toNat < a.base := by
  rw [base]
  split
  · rename_i h
    unfold Text.isOctal at h
    rw [dropMinus_text] at h
    split at h
    · rename_i d ds heq
      rw [heq] at hc
      rcases List.mem_cons.1 hc with rfl | hc
      · decide
      · exact Text.isDigit_and_lt_of_isOctalDigit (List.all_eq_true.1 h c hc)
    · cases h
  · have hdigit := a.isDigit_of_mem c hc
    exact ⟨hdigit, Text.lt_ten_of_isDigit hdigit⟩

theorem kind_text (comments : Bool) :
    Kind.ofWord comments a.text =
      if Text.isOctal a.text then .octal
      else if Text.isMalformed a.text then .malformed else .decimal := by
  simp [Kind.ofWord, a.isDecimal_text]

/-- The lexeme that a numeral is, whether there are comment marks or not. -/
def lexeme : Lexeme := .ofWord false a.text

theorem lexeme_eq {kind : Kind} (h : a.lexeme.kind = kind) : a.lexeme = ⟨kind, a.text⟩ := by
  rw [← h]
  rfl

theorem ofWord_text (comments : Bool) : Lexeme.ofWord comments a.text = a.lexeme := by
  rw [lexeme, Lexeme.ofWord, Lexeme.ofWord, kind_text, kind_text]

/-- A numeral is of one of three kinds, and its base is that of its kind. -/
theorem kind_and_base :
    (a.lexeme.kind = .octal ∧ a.base = 8) ∨
      (a.lexeme.kind = .malformed ∧ a.base = 10) ∨ (a.lexeme.kind = .decimal ∧ a.base = 10) := by
  rw [lexeme, Lexeme.kind_ofWord, kind_text, base]
  by_cases hoctal : Text.isOctal a.text
  · simp [hoctal]
  · by_cases hmalformed : Text.isMalformed a.text
    · simp [hoctal, hmalformed]
    · simp [hoctal, hmalformed]

theorem tooLong_lexeme_iff :
    a.lexeme.TooLong ↔ a.lexeme.kind = .decimal ∧ Text.digitLimit < a.digits.length := by
  rw [Lexeme.TooLong, lexeme, Lexeme.text_ofWord, dropMinus_text]

theorem signAndDigits?_text :
    Text.signAndDigits? a.base a.text =
      some (a.negative, a.digits.map fun c => c.toNat - '0'.toNat) := by
  rw [text]
  split
  · rename_i hnegative
    rw [hnegative]
    exact Text.signAndDigits?_minus_of_isDigit a.digits_ne_nil fun _ => a.isDigit_and_lt_base
  · rename_i hpositive
    rw [Bool.not_eq_true] at hpositive
    rw [hpositive]
    exact Text.signAndDigits?_of_isDigit a.digits_ne_nil fun _ => a.isDigit_and_lt_base

/-- A numeral that is neither malformed nor too long has a value in its base. -/
theorem read?_text (ha : a.lexeme.kind ≠ .malformed) (hlong : ¬ a.lexeme.TooLong) :
    Text.read? a.base a.text = some a.exact := by
  refine Text.read?_of_not_tooMany a.signAndDigits?_text ?_
  rw [List.length_map, Text.tooMany]
  rcases a.kind_and_base with ⟨_, hbase⟩ | ⟨hkind, _⟩ | ⟨hkind, hbase⟩
  · simp [hbase]
  · exact absurd hkind ha
  · have hlimit : ¬ Text.digitLimit < a.digits.length :=
      fun h => hlong (a.tooLong_lexeme_iff.2 ⟨hkind, h⟩)
    simp [hlimit]

theorem read?_of_tooLong (hlong : a.lexeme.TooLong) : Text.read? 10 a.text = none := by
  obtain ⟨hkind, hlimit⟩ := a.tooLong_lexeme_iff.1 hlong
  have hbase : a.base = 10 := by
    rcases a.kind_and_base with ⟨hother, _⟩ | ⟨hother, _⟩ | ⟨_, hbase⟩
    · cases hother.symm.trans hkind
    · cases hother.symm.trans hkind
    · exact hbase
  rw [← hbase]
  refine Text.read?_of_tooMany a.signAndDigits?_text ?_
  simp [Text.tooMany, hbase, hlimit]

theorem literal?_text (ha : a.lexeme.kind ≠ .malformed) (hlong : ¬ a.lexeme.TooLong) :
    Machine.literal? a.base a.text = some a.value := by
  refine Machine.literal?_eq_clamp (a.read?_text ha hlong) fun hne => ?_
  rw [head?_text]
  rw [exact] at hne ⊢
  cases hsign : a.negative with
  | false => simp
  | true =>
      rw [hsign, if_pos rfl] at hne
      rw [if_pos rfl]
      exact ⟨fun _ => rfl, fun _ => by omega⟩

section Feeding

variable {evaluate : Machine → Text → Run} {m : Machine} (hm : m.comment = false)
include hm

/-- A numeral that is neither malformed nor too long is worth its value to the machine. -/
theorem feedWith_lexeme (ha : a.lexeme.kind ≠ .malformed) (hlong : ¬ a.lexeme.TooLong) :
    Machine.feedWith evaluate m a.lexeme = m.push (.integer a.value) := by
  have hliteral := a.literal?_text ha hlong
  rcases a.kind_and_base with ⟨hkind, hbase⟩ | ⟨hkind, _⟩ | ⟨hkind, hbase⟩
  · rw [hbase] at hliteral
    rw [a.lexeme_eq hkind, Machine.feedWith_octal hm, Machine.pushLiteral, hliteral]
  · exact absurd hkind ha
  · rw [hbase] at hliteral
    rw [a.lexeme_eq hkind, Machine.feedWith_decimal hm, Machine.pushLiteral, hliteral]

theorem feedWith_of_malformed (ha : a.lexeme.kind = .malformed) :
    Machine.feedWith evaluate m a.lexeme = .idle m := by
  rw [a.lexeme_eq ha, Machine.feedWith_malformed hm]

/-- A numeral that is too long cannot be read, and that is all that happens. -/
theorem feedWith_of_tooLong (hlong : a.lexeme.TooLong) :
    Machine.feedWith evaluate m a.lexeme = .failing m (.invalidNumeral 10 a.text) := by
  rw [a.lexeme_eq hlong.1, Machine.feedWith_decimal hm, Machine.pushLiteral, Machine.literal?,
    a.read?_of_tooLong hlong, Option.map_none]

end Feeding

/-- The numeral that consists of one digit `1` more than are read. -/
def tooManyOnes : Numeral :=
  ⟨false, List.replicate 4301 '1', List.ne_nil_of_length_pos (by rw [List.length_replicate]; decide),
    fun _ h => List.eq_of_mem_replicate h ▸ rfl⟩

theorem tooLong_tooManyOnes : tooManyOnes.lexeme.TooLong := by
  refine tooManyOnes.tooLong_lexeme_iff.2 ⟨?_, ?_⟩
  · rw [lexeme, Lexeme.kind_ofWord, kind_text, Text.isOctal, Text.isMalformed, dropMinus_text]
    rfl
  · rw [tooManyOnes, List.length_replicate]
    decide

/-! The numeral of an integer. -/

/-- The numeral that is the decimal form of an integer. -/
def ofInt (n : Int) : Numeral :=
  ⟨decide (n < 0), Nat.toDigits 10 n.natAbs, Nat.toDigits_ne_nil,
    fun _ h => (Text.isDigit_and_lt_of_mem_toDigits h).1⟩

theorem text_ofInt (n : Int) : (ofInt n).text = Text.decimal n := by
  simp [text, ofInt, Text.decimal]

/-- The digits of a number begin with `0` for the number zero only. -/
theorem head?_toDigits_ne {n : Nat} (h : 0 < n) : (Nat.toDigits 10 n).head? ≠ some '0' := by
  have hdigit : ∀ d : Fin 10, d ≠ 0 → d.val.digitChar ≠ '0' := by decide
  induction n using Nat.strongRecOn with
  | _ n ih =>
      by_cases hlt : n < 10
      · rw [Nat.toDigits_of_lt_base hlt]
        intro hzero
        refine hdigit ⟨n, hlt⟩ (fun hn => ?_) (by simpa using hzero)
        exact Nat.ne_of_gt h (congrArg Fin.val hn)
      · -- A number of several digits begins like its quotient by ten.
        have hrest := Nat.toDigits_of_base_le (by decide : 1 < 10) (Nat.le_of_not_lt hlt)
        have hne : Nat.toDigits 10 (n / 10) ≠ [] := Nat.toDigits_ne_nil
        rw [hrest, List.head?_append, List.head?_eq_some_head hne, Option.some_or,
          ← List.head?_eq_some_head hne]
        exact ih (n / 10) (by omega) (by omega)

/-- The decimal form of an integer does not begin with the digit `0`, unless that is all of it. -/
theorem digits_ofInt_ne (n : Int) (c : Char) (cs : Text) : (ofInt n).digits ≠ '0' :: c :: cs := by
  intro h
  have hhead : (Nat.toDigits 10 n.natAbs).head? = some '0' := congrArg List.head? h
  rcases Nat.eq_zero_or_pos n.natAbs with hzero | hpos
  · have hlength := congrArg List.length h
    simp [ofInt, hzero] at hlength
  · exact head?_toDigits_ne hpos hhead

theorem base_ofInt (n : Int) : (ofInt n).base = 10 := by
  have hoctal : ¬ Text.isOctal (ofInt n).text := by
    rw [Text.isOctal, dropMinus_text]
    split
    · rename_i c cs h
      exact absurd h (digits_ofInt_ne n c cs)
    · exact Bool.false_ne_true
  rw [base, if_neg hoctal]

theorem kind_ofInt (n : Int) : (ofInt n).lexeme.kind ≠ .malformed := by
  have hmalformed : ¬ Text.isMalformed (ofInt n).text := by
    rw [Text.isMalformed, dropMinus_text]
    split
    · rename_i c d cs h
      exact absurd h (digits_ofInt_ne n c (d :: cs))
    · exact Bool.false_ne_true
  rw [lexeme, Lexeme.kind_ofWord, kind_text, if_neg hmalformed]
  split <;> decide

theorem exact_ofInt (n : Int) : (ofInt n).exact = n := by
  have hmagnitude : (ofInt n).magnitude = n.natAbs := by
    rw [magnitude, base_ofInt]
    exact Text.ofDigits_toDigits n.natAbs
  rw [exact, hmagnitude]
  by_cases hn : n < 0
  · rw [ofInt, decide_eq_true hn, if_pos rfl]
    omega
  · rw [ofInt, decide_eq_false hn, if_neg Bool.false_ne_true]
    omega

/-- The decimal form of a word is worth that word. -/
theorem value_ofInt {n : Int} (h : Word.Fits n) : (ofInt n).value = n := by
  rw [value, exact_ofInt, Word.clamp_of_fits h]

end Numeral

end RpnCalculator
