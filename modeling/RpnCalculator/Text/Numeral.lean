import RpnCalculator.Text.Blank
import RpnCalculator.Text.Digit

/-!
# Numerals

The numerals of a base: a sign, then digits. `read?` takes all that may be written for an integer:
white space around it, either sign, digits of any script, single underscores between digits, and in
base eight the mark `0o`. Of a base that is no power of two it reads no numeral of more digits than
`digitLimit`, however small its value is. `signAndDigits?` tells such a numeral from a text that is
none. `decimal` writes an integer the one way the calculator prints it.
-/

namespace RpnCalculator

namespace Text

/-- White space that may stand around a numeral: the blanks, and the white space of Unicode beyond
ASCII. The four ASCII separators from `U+001C` to `U+001F` are not among it. -/
def isSpacing (c : Char) : Bool :=
  [0x09, 0x0a, 0x0b, 0x0c, 0x0d, 0x20, 0x85, 0xa0, 0x1680, 0x2000, 0x2001, 0x2002, 0x2003, 0x2004,
    0x2005, 0x2006, 0x2007, 0x2008, 0x2009, 0x200a, 0x2028, 0x2029, 0x202f, 0x205f, 0x3000].contains
    c.toNat

/-- The text between the outermost characters that do not satisfy `p`, these included. -/
def trim (p : Char → Bool) (text : Text) : Text :=
  ((text.dropWhile p).reverse.dropWhile p).reverse

/-- The value of a digit of the base, in any script. -/
def digitOfBase? (base : Nat) (c : Char) : Option Nat :=
  (digitValue? c).filter (· < base)

/-- The value of a list of digits, the most significant first. -/
def ofDigits (base : Nat) (digits : List Nat) : Nat :=
  digits.foldl (fun value digit => base * value + digit) 0

/-- The text after the mark of base eight, which is `0o` with the zero of any script and after it at
most one underscore; the whole text if it does not begin with that mark or the base is another
one. -/
def dropBaseMark (base : Nat) : Text → Text
  | zero :: mark :: rest =>
    if base = 8 ∧ digitValue? zero = some 0 ∧ (mark = 'o' ∨ mark = 'O') then
      match rest with
      | '_' :: digits => digits
      | digits => digits
    else zero :: mark :: rest
  | text => text

/-- The digits of a numeral without its sign, which may stand in groups with one underscore between
two groups. No group is empty. -/
def digitsOf? (base : Nat) (text : Text) : Option (List Nat) :=
  let groups := cut (· == '_') (dropBaseMark base text)
  if groups.any List.isEmpty then none else groups.flatten.mapM (digitOfBase? base)

/-- The sign and the digits of the numeral that a text writes in the base, if it writes one. The sign
says whether the numeral is negative. -/
def signAndDigits? (base : Nat) (text : Text) : Option (Bool × List Nat) :=
  match trim isSpacing text with
  | '-' :: rest => (digitsOf? base rest).map (true, ·)
  | '+' :: rest => (digitsOf? base rest).map (false, ·)
  | rest => (digitsOf? base rest).map (false, ·)

/-- The greatest number of digits that are read in a base that is no power of two. -/
def digitLimit : Nat := 4300

/-- Whether so many digits are too many to be read in the base. In a base that is a power of two there
are never too many. -/
def tooMany (base count : Nat) : Bool := ! [2, 4, 8, 16, 32].contains base && digitLimit < count

/-- The integer that a text writes in the base, if it is a numeral that has not too many digits. The
zeros at the beginning are digits too, the underscores are not. -/
def read? (base : Nat) (text : Text) : Option Int :=
  match signAndDigits? base text with
  | none => none
  | some (negative, digits) =>
    if tooMany base digits.length then none
    else some (if negative then -(ofDigits base digits : Int) else ofDigits base digits)

/-- The decimal form of an integer: its digits, after a minus sign if it is negative. -/
def decimal (n : Int) : Text :=
  if n < 0 then '-' :: Nat.toDigits 10 n.natAbs else Nat.toDigits 10 n.natAbs

theorem trim_eq_self {p : Char → Bool} {text : Text} (h : ∀ c ∈ text, ¬ p c) :
    trim p text = text := by
  have hdrop : ∀ {l : Text}, (∀ c ∈ l, ¬ p c) → l.dropWhile p = l := by
    intro l hl
    cases l with
    | nil => rfl
    | cons c cs => exact List.dropWhile_cons_of_neg (hl c List.mem_cons_self)
  rw [trim, hdrop h, hdrop fun c hc => h c (List.mem_reverse.1 hc), List.reverse_reverse]

theorem ofDigits_append_singleton (base : Nat) (digits : List Nat) (digit : Nat) :
    ofDigits base (digits ++ [digit]) = base * ofDigits base digits + digit := by
  simp [ofDigits]

theorem digitOfBase?_of_isDigit {base : Nat} {c : Char} (h : c.isDigit)
    (hbase : c.toNat - '0'.toNat < base) : digitOfBase? base c = some (c.toNat - '0'.toNat) := by
  rw [digitOfBase?, digitValue?_of_isDigit h]
  exact if_pos (decide_eq_true hbase)

/-- A digit is neither spacing nor a sign nor an underscore nor a letter. -/
theorem ne_of_isDigit {c d : Char} (h : c.isDigit) (hd : d.isDigit = false) : c ≠ d := by
  rintro rfl
  simp [h] at hd

theorem not_isSpacing_of_isDigit {c : Char} (h : c.isDigit) : ¬ isSpacing c := by
  simp only [Char.isDigit, Bool.and_eq_true, decide_eq_true_eq, ge_iff_le,
    UInt32.le_iff_toNat_le] at h
  have hlow : 48 ≤ c.toNat := h.1
  have hhigh : c.toNat ≤ 57 := h.2
  simp only [isSpacing, List.contains_eq_mem, decide_eq_true_eq, List.mem_cons, List.not_mem_nil,
    or_false]
  omega

theorem dropBaseMark_of_isDigit (base : Nat) {text : Text} (h : ∀ c ∈ text, c.isDigit) :
    dropBaseMark base text = text := by
  unfold dropBaseMark
  split
  · rename_i zero mark rest
    have hmark := h mark (by simp)
    rw [if_neg]
    rintro ⟨_, _, rfl | rfl⟩ <;> simp at hmark
  · rfl

theorem digitsOf?_of_isDigit {base : Nat} {text : Text} (hne : text ≠ [])
    (h : ∀ c ∈ text, c.isDigit ∧ c.toNat - '0'.toNat < base) :
    digitsOf? base text = some (text.map fun c => c.toNat - '0'.toNat) := by
  have hcut : cut (· == '_') text = [text] := by
    refine cut_eq_singleton fun c hc => ?_
    simpa using ne_of_isDigit (h c hc).1 (by decide)
  have hdigits : ∀ {l : Text}, (∀ c ∈ l, c.isDigit ∧ c.toNat - '0'.toNat < base) →
      l.mapM (digitOfBase? base) = some (l.map fun c => c.toNat - '0'.toNat) := by
    intro l hl
    induction l with
    | nil => rfl
    | cons c cs ih =>
        have hc := hl c List.mem_cons_self
        rw [List.mapM_cons, digitOfBase?_of_isDigit hc.1 hc.2,
          ih fun d hd => hl d (List.mem_cons_of_mem _ hd)]
        rfl
  rw [digitsOf?, dropBaseMark_of_isDigit base fun c hc => (h c hc).1, hcut]
  simp [hne, hdigits h]

/-- A run of ASCII digits of the base is a numeral. -/
theorem signAndDigits?_of_isDigit {base : Nat} {text : Text} (hne : text ≠ [])
    (h : ∀ c ∈ text, c.isDigit ∧ c.toNat - '0'.toNat < base) :
    signAndDigits? base text = some (false, text.map fun c => c.toNat - '0'.toNat) := by
  have htrim : trim isSpacing text = text :=
    trim_eq_self fun c hc => not_isSpacing_of_isDigit (h c hc).1
  rw [signAndDigits?, htrim]
  split
  · exact absurd (h '-' (by simp)).1 (by decide)
  · exact absurd (h '+' (by simp)).1 (by decide)
  · rw [digitsOf?_of_isDigit hne h]
    rfl

/-- A minus sign may stand before the digits. -/
theorem signAndDigits?_minus_of_isDigit {base : Nat} {text : Text} (hne : text ≠ [])
    (h : ∀ c ∈ text, c.isDigit ∧ c.toNat - '0'.toNat < base) :
    signAndDigits? base ('-' :: text) = some (true, text.map fun c => c.toNat - '0'.toNat) := by
  have htrim : trim isSpacing ('-' :: text) = '-' :: text := by
    refine trim_eq_self fun c hc => ?_
    rcases List.mem_cons.1 hc with rfl | hc
    · decide
    · exact not_isSpacing_of_isDigit (h c hc).1
  rw [signAndDigits?, htrim]
  simp only [digitsOf?_of_isDigit hne h, Option.map_some]

theorem read?_of_tooMany {base : Nat} {text : Text} {negative : Bool} {digits : List Nat}
    (h : signAndDigits? base text = some (negative, digits)) (hmany : tooMany base digits.length) :
    read? base text = none := by
  simp only [read?, h, hmany, if_true]

theorem read?_of_not_tooMany {base : Nat} {text : Text} {negative : Bool} {digits : List Nat}
    (h : signAndDigits? base text = some (negative, digits))
    (hmany : ¬ tooMany base digits.length) :
    read? base text =
      some (if negative then -(ofDigits base digits : Int) else ofDigits base digits) := by
  simp only [read?, h, if_neg hmany]

theorem ofDigits_map_toNat (base : Nat) (text : Text) :
    ofDigits base (text.map fun c => c.toNat - '0'.toNat) = Nat.ofDigitChars base text 0 := by
  simp [ofDigits, Nat.ofDigitChars, List.foldl_map]

theorem isDigit_and_lt_of_mem_toDigits {n : Nat} {c : Char} (h : c ∈ Nat.toDigits 10 n) :
    c.isDigit ∧ c.toNat - '0'.toNat < 10 := by
  have hdigit := Nat.isDigit_of_mem_toDigits (by decide) (by decide) h
  refine ⟨hdigit, ?_⟩
  simp only [Char.isDigit, Bool.and_eq_true, decide_eq_true_eq, ge_iff_le,
    UInt32.le_iff_toNat_le] at hdigit
  have hhigh : c.toNat ≤ 57 := hdigit.2
  change c.toNat - 48 < 10
  omega

/-- The digits of a number are worth that number. -/
theorem ofDigits_toDigits (n : Nat) :
    ofDigits 10 ((Nat.toDigits 10 n).map fun c => c.toNat - '0'.toNat) = n := by
  rw [ofDigits_map_toNat, Nat.ofDigitChars_toDigits (by decide) (by decide)]

end Text

end RpnCalculator
