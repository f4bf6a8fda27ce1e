import Mathlib.Tactic.Linarith
import Mathlib.Tactic.Ring
import RpnCalculator.Number

/-!
# The integer part of a rounded quotient

A quotient of two integers is rounded to double precision before its fraction is dropped, and the
rounding cannot be seen in what is left, if both have fewer than `53` digits: a quotient that is no
integer keeps a distance from the next one that is more than half a step of the grid
(`roundHalfEven_mul_pow_div`), since the step shrinks with the quotient. A greater integer may be
moved by the rounding, but it stays out of the range of words on its side. So the word that is kept
of a rounded quotient or integer is the word of the exact one (`saturate_ofRatio_of_lt`,
`saturate_ofRatio_one`).
-/

namespace RpnCalculator

/-- An integer given by its sign and its absolute value. -/
def signed (negative : Bool) (magnitude : Nat) : Int :=
  if negative then -(magnitude : Int) else magnitude

theorem signed_eq_of_natAbs {negative : Bool} {magnitude : Nat} {n : Int}
    (hmagnitude : n.natAbs = magnitude) (hsign : n ≠ 0 → (negative = true ↔ n < 0)) :
    signed negative magnitude = n := by
  rw [signed]
  split
  · rename_i h
    by_cases hzero : n = 0
    · omega
    · have hneg := (hsign hzero).1 h
      omega
  · rename_i h
    by_cases hzero : n = 0
    · omega
    · have hnonneg := mt (hsign hzero).2 h
      omega

/-- Out of the range of words only the sign counts. -/
theorem clamp_signed_of_le {magnitude : Nat} (h : 2147483648 ≤ magnitude) (negative : Bool) :
    Word.clamp (signed negative magnitude) = if negative then Word.lowest else Word.highest := by
  cases negative with
  | false =>
      refine Word.clamp_of_highest_le ?_
      simp only [signed, Word.highest, Bool.false_eq_true, if_false]
      omega
  | true =>
      refine Word.clamp_of_le_lowest ?_
      simp only [signed, Word.lowest, if_true]
      omega

namespace Binary64

/-! The grid. -/

theorem rescale_eq (num den : Nat) (exponent : Int) :
    rescale num den exponent = (num * 2 ^ (-exponent).toNat, den * 2 ^ exponent.toNat) := by
  rw [rescale, Nat.shiftLeft_eq, Nat.shiftLeft_eq]

theorem floorLog_le (num den : Nat) : floorLog num den ≤ num.log2 - den.log2 := by
  rw [floorLog]
  split <;> omega

/-- For an integer the first estimate is right. -/
theorem floorLog_one {num : Nat} (hnum : 0 < num) : floorLog num 1 = num.log2 := by
  have hone : Nat.log2 1 = 0 := rfl
  have hlow := Nat.log2_self_le (Nat.ne_of_gt hnum)
  have hdown : (-(num.log2 : Int)).toNat = 0 := by omega
  rw [floorLog]
  simp only [rescale_eq, hone, Int.natCast_zero, Int.sub_zero]
  rw [hdown, Int.toNat_natCast, Nat.pow_zero, Nat.mul_one, Nat.one_mul,
    if_neg (Nat.not_lt.2 hlow)]

/-- `2 ^ floorLog num den` is not above the quotient. -/
theorem mul_pow_floorLog_le {num : Nat} (hnum : 0 < num) (den : Nat) :
    den * 2 ^ (floorLog num den).toNat ≤ num * 2 ^ (-floorLog num den).toNat := by
  have hlow := Nat.log2_self_le (Nat.ne_of_gt hnum)
  have hhigh := Nat.lt_log2_self (n := den)
  rw [floorLog]
  simp only [rescale_eq]
  split
  · -- The quotient of the two leading powers of two is at least the double of the power sought.
    rcases Nat.lt_or_ge den.log2 num.log2 with hlt | hge
    · obtain ⟨d, hd⟩ : ∃ d, num.log2 = den.log2 + 1 + d := ⟨num.log2 - den.log2 - 1, by omega⟩
      have hpos : ((num.log2 : Int) - den.log2 - 1).toNat = d := by omega
      have hneg : (-((num.log2 : Int) - den.log2 - 1)).toNat = 0 := by omega
      rw [hpos, hneg, Nat.pow_zero, Nat.mul_one]
      calc den * 2 ^ d ≤ 2 ^ (den.log2 + 1) * 2 ^ d := Nat.mul_le_mul_right _ (Nat.le_of_lt hhigh)
        _ = 2 ^ num.log2 := by rw [← Nat.pow_add, ← hd]
        _ ≤ num := hlow
    · obtain ⟨d, hd⟩ : ∃ d, den.log2 = num.log2 + d := ⟨den.log2 - num.log2, by omega⟩
      have hpos : ((num.log2 : Int) - den.log2 - 1).toNat = 0 := by omega
      have hneg : (-((num.log2 : Int) - den.log2 - 1)).toNat = d + 1 := by omega
      rw [hpos, hneg, Nat.pow_zero, Nat.mul_one]
      calc den ≤ 2 ^ (den.log2 + 1) := Nat.le_of_lt hhigh
        _ = 2 ^ num.log2 * 2 ^ (d + 1) := by rw [← Nat.pow_add, hd, Nat.add_assoc]
        _ ≤ num * 2 ^ (d + 1) := Nat.mul_le_mul_right _ hlow
  · rename_i h
    exact Nat.not_lt.1 h

/-- A quotient that is no integer is not rounded to the next one, if the grid is fine enough. -/
theorem roundHalfEven_mul_pow_div {num den k : Nat} (hden : 0 < den) (h : den < 2 ^ (k + 1)) :
    roundHalfEven (num * 2 ^ k) den / 2 ^ k = num / den := by
  obtain ⟨hlow, hhigh⟩ := roundHalfEven_near (num * 2 ^ k) hden
  have hpow : 0 < 2 ^ k := Nat.two_pow_pos k
  have hfloor : num / den * den ≤ num := Nat.div_mul_le_self num den
  have hnext : num < (num / den + 1) * den := by
    rw [Nat.mul_comm]
    exact Nat.lt_mul_div_succ num hden
  rw [Nat.pow_succ] at h
  generalize roundHalfEven (num * 2 ^ k) den = rounded at hlow hhigh ⊢
  generalize num / den = quotient at hfloor hnext ⊢
  generalize 2 ^ k = step at h hlow hhigh hpow ⊢
  refine Nat.div_eq_of_lt_le ?_ ?_
  · by_contra hlt
    have hle : (rounded + 1) * den ≤ quotient * step * den :=
      Nat.mul_le_mul_right den (Nat.not_le.1 hlt)
    have hscaled : quotient * den * step ≤ num * step := Nat.mul_le_mul_right step hfloor
    linarith
  · by_contra hge
    have hle : (quotient + 1) * step * den ≤ rounded * den :=
      Nat.mul_le_mul_right den (Nat.not_lt.1 hge)
    have hscaled : (num + 1) * step ≤ (quotient + 1) * den * step :=
      Nat.mul_le_mul_right step hnext
    linarith

/-! The integer part. -/

/-- The integer part of `significand * 2 ^ exponent`. -/
def integerPart (significand : Nat) (exponent : Int) : Nat :=
  (significand <<< exponent.toNat) >>> (-exponent).toNat

theorem integerPart_eq (significand : Nat) (exponent : Int) :
    integerPart significand exponent =
      significand * 2 ^ exponent.toNat / 2 ^ (-exponent).toNat := by
  rw [integerPart, Nat.shiftLeft_eq, Nat.shiftRight_eq_div_pow]

/-- The two ways of writing a significand that has one digit too many. -/
theorem integerPart_carry (exponent : Int) :
    integerPart (1 <<< (precision - 1)) (exponent + 1) =
      integerPart (1 <<< precision) exponent := by
  have hdouble : 1 <<< precision = 1 <<< (precision - 1) * 2 := rfl
  rw [integerPart_eq, integerPart_eq, hdouble]
  rcases Int.lt_or_le exponent 0 with hneg | hnonneg
  · obtain ⟨d, rfl⟩ : ∃ d : Nat, exponent = -(d + 1) := ⟨(-exponent).toNat - 1, by omega⟩
    have hup : (-(d + 1 : Int) + 1).toNat = 0 := by omega
    have hdown : (-(-(d + 1 : Int) + 1)).toNat = d := by omega
    have hup' : (-(d + 1 : Int)).toNat = 0 := by omega
    have hdown' : (-(-(d + 1 : Int))).toNat = d + 1 := by omega
    rw [hup, hdown, hup', hdown', Nat.pow_zero, Nat.mul_one, Nat.mul_one, Nat.pow_succ,
      Nat.mul_div_mul_right _ _ (by decide)]
  · obtain ⟨d, rfl⟩ := Int.eq_ofNat_of_zero_le hnonneg
    have hdown : (-((d : Int) + 1)).toNat = 0 := by omega
    have hdown' : (-(d : Int)).toNat = 0 := by omega
    have hup : ((d : Int) + 1).toNat = d + 1 := by omega
    rw [hup, hdown, hdown', Int.toNat_natCast, Nat.pow_succ, Nat.mul_assoc, Nat.mul_comm 2]

theorem saturate_finite (negative : Bool) (significand : Nat) (exponent : Int) :
    (finite negative significand exponent).saturate =
      Word.clamp (signed negative (integerPart significand exponent)) :=
  saturate_of_truncate? rfl

/-- A value past the greatest finite one is past the words as well. -/
theorem le_integerPart {significand : Nat} (hsignificand : 0 < significand) {exponent : Int}
    (h : 31 ≤ exponent) : 2147483648 ≤ integerPart significand exponent := by
  have hdown : (-exponent).toNat = 0 := by omega
  have hpow : 2 ^ 31 ≤ 2 ^ exponent.toNat := Nat.pow_le_pow_right (by decide) (by omega)
  rw [integerPart_eq, hdown, Nat.pow_zero, Nat.div_one]
  calc 2147483648 ≤ 2 ^ exponent.toNat := hpow
    _ ≤ significand * 2 ^ exponent.toNat := Nat.le_mul_of_pos_left _ hsignificand

theorem saturate_normalize (negative : Bool) {significand : Nat} {exponent : Int}
    (h : 0 < significand ∨ exponent ≤ 0) :
    (normalize negative significand exponent).saturate =
      Word.clamp (signed negative (integerPart significand exponent)) := by
  have hinfinite (hexponent : 31 ≤ exponent) : (infinite negative).saturate =
      Word.clamp (signed negative (integerPart significand exponent)) := by
    have hpos : 0 < significand := h.resolve_right (by omega)
    rw [clamp_signed_of_le (le_integerPart hpos hexponent), saturate_infinite]
  rw [normalize, greatestExponent]
  split
  · rename_i hcarry
    split
    · exact hinfinite (by omega)
    · rw [saturate_finite, integerPart_carry, ← hcarry]
  · split
    · exact hinfinite (by omega)
    · exact saturate_finite negative significand exponent

/-! Rounded quotients. -/

/-- The grid of a quotient of two numbers with fewer than `53` digits is fine enough. -/
theorem exists_gridExponent_eq_neg {num den : Nat} (hnum : 0 < num) (hnum' : num < 2 ^ 53)
    (hden' : den < 2 ^ 53) : ∃ k : Nat, gridExponent num den = -(k : Int) ∧ den < 2 ^ (k + 1) := by
  have hlog : num.log2 < 53 := (Nat.log2_lt (Nat.ne_of_gt hnum)).2 hnum'
  have hfloor := floorLog_le num den
  have hpower := mul_pow_floorLog_le hnum den
  obtain ⟨k, hk⟩ : ∃ k : Nat, gridExponent num den = -(k : Int) :=
    ⟨(-gridExponent num den).toNat, by rw [gridExponent, leastExponent]; omega⟩
  refine ⟨k, hk, ?_⟩
  rw [gridExponent, leastExponent] at hk
  rcases Int.lt_or_le (floorLog num den) 0 with hneg | hnonneg
  · exact Nat.lt_of_lt_of_le hden' (Nat.pow_le_pow_right (by decide) (by omega))
  · obtain ⟨l, hl⟩ := Int.eq_ofNat_of_zero_le hnonneg
    have hdown : (-(l : Int)).toNat = 0 := by omega
    rw [hl, hdown, Int.toNat_natCast, Nat.pow_zero, Nat.mul_one] at hpower
    refine Nat.lt_of_mul_lt_mul_right (a := 2 ^ l) ?_
    calc den * 2 ^ l ≤ num := hpower
      _ < 2 ^ 53 := hnum'
      _ = 2 ^ (k + 1) * 2 ^ l := by rw [← Nat.pow_add]; congr 1; omega

/-- With fewer than `53` digits in both numbers the word is that of the exact quotient. -/
theorem saturate_ofRatio_of_lt (negative : Bool) {num den : Nat} (hden : 0 < den)
    (hnum' : num < 2 ^ 53) (hden' : den < 2 ^ 53) :
    (ofRatio negative num den).saturate = Word.clamp (signed negative (num / den)) := by
  rcases Nat.eq_zero_or_pos num with rfl | hnum
  · rw [ofRatio, if_pos rfl, Nat.zero_div]
    cases negative <;> rfl
  · obtain ⟨k, hk, hfine⟩ := exists_gridExponent_eq_neg hnum hnum' hden'
    have hup : (-(k : Int)).toNat = 0 := by omega
    rw [ofRatio, if_neg (Nat.ne_of_gt hnum)]
    simp only [hk]
    rw [saturate_normalize negative (.inr (by omega)), integerPart_eq, rescale_eq, Int.neg_neg,
      Int.toNat_natCast, hup, Nat.pow_zero, Nat.mul_one, Nat.mul_one,
      roundHalfEven_mul_pow_div hden hfine]

/-- The grid of an integer with more digits, which is not above its leading digit. -/
theorem exists_gridExponent_eq {num : Nat} (h : 2 ^ 53 ≤ num) :
    ∃ l : Nat, gridExponent num 1 = (l : Int) ∧ num.log2 = 52 + l ∧ 2 ^ (52 + l) ≤ num := by
  have hnum : 0 < num := Nat.lt_of_lt_of_le (by decide) h
  have hlog : 53 ≤ num.log2 := (Nat.le_log2 (Nat.ne_of_gt hnum)).2 h
  have hlow := Nat.log2_self_le (Nat.ne_of_gt hnum)
  obtain ⟨l, hl⟩ : ∃ l, num.log2 = 52 + l := ⟨num.log2 - 52, by omega⟩
  refine ⟨l, ?_, hl, hl ▸ hlow⟩
  rw [gridExponent, floorLog_one hnum, leastExponent]
  omega

theorem pow_le_roundHalfEven {num l : Nat} (h : 2 ^ (52 + l) ≤ num) :
    2 ^ 52 ≤ roundHalfEven num (2 ^ l) := by
  have hnear := (roundHalfEven_near num (Nat.two_pow_pos l)).1
  have hscaled : 2 ^ 53 * 2 ^ l ≤ (2 * roundHalfEven num (2 ^ l) + 1) * 2 ^ l :=
    calc 2 ^ 53 * 2 ^ l = 2 * 2 ^ (52 + l) := by ring
      _ ≤ 2 * num := Nat.mul_le_mul_left 2 h
      _ ≤ (2 * roundHalfEven num (2 ^ l) + 1) * 2 ^ l := hnear
  have hdouble := Nat.le_of_mul_le_mul_right hscaled (Nat.two_pow_pos l)
  omega

/-- A greater integer is out of the range of words on its side, rounded or not. -/
theorem saturate_ofRatio_one_of_le (negative : Bool) {num : Nat} (h : 2 ^ 53 ≤ num) :
    (ofRatio negative num 1).saturate = Word.clamp (signed negative num) := by
  have hnum : 0 < num := Nat.lt_of_lt_of_le (by decide) h
  obtain ⟨l, hl, -, hpower⟩ := exists_gridExponent_eq h
  have hrounded := pow_le_roundHalfEven hpower
  have hdown : (-(l : Int)).toNat = 0 := by omega
  have hpart : 2147483648 ≤ integerPart (roundHalfEven num (2 ^ l)) l := by
    rw [integerPart_eq, hdown, Int.toNat_natCast, Nat.pow_zero, Nat.div_one]
    calc 2147483648 ≤ 2 ^ 52 := by decide
      _ ≤ roundHalfEven num (2 ^ l) := hrounded
      _ ≤ roundHalfEven num (2 ^ l) * 2 ^ l := Nat.le_mul_of_pos_right _ (Nat.two_pow_pos l)
  rw [ofRatio, if_neg (Nat.ne_of_gt hnum)]
  simp only [hl]
  rw [rescale_eq, hdown, Int.toNat_natCast, Nat.pow_zero, Nat.mul_one, Nat.one_mul,
    saturate_normalize negative (.inl (Nat.lt_of_lt_of_le (by decide) hrounded)),
    clamp_signed_of_le hpart, clamp_signed_of_le (Nat.le_trans (by decide) h)]

/-- The word of a rounded integer is that of the integer. -/
theorem saturate_ofRatio_one (negative : Bool) (num : Nat) :
    (ofRatio negative num 1).saturate = Word.clamp (signed negative num) := by
  rcases Nat.lt_or_ge num (2 ^ 53) with hlt | hge
  · rw [saturate_ofRatio_of_lt negative Nat.one_pos hlt (by decide), Nat.div_one]
  · exact saturate_ofRatio_one_of_le negative hge

/-- The format has no finite value for an integer with more than `1024` digits. -/
theorem ofRatio_one_eq_infinite (negative : Bool) {num k : Nat} (hk : 1024 ≤ k)
    (h : 2 ^ k ≤ num) : ofRatio negative num 1 = infinite negative := by
  have hnum : 0 < num := Nat.lt_of_lt_of_le (Nat.two_pow_pos k) h
  have hlog : k ≤ num.log2 := (Nat.le_log2 (Nat.ne_of_gt hnum)).2 h
  have hle : 2 ^ 53 ≤ num := Nat.le_trans (Nat.pow_le_pow_right (by decide) (by omega)) h
  obtain ⟨l, hl, hleading, -⟩ := exists_gridExponent_eq hle
  have hgreat : greatestExponent < (l : Int) := by
    rw [greatestExponent]
    omega
  rw [ofRatio, if_neg (Nat.ne_of_gt hnum)]
  simp only [hl]
  rw [normalize, if_pos hgreat, if_pos (Int.lt_add_one_iff.2 (Int.le_of_lt hgreat)), ite_self]

theorem saturate_ofInt (n : Int) : (ofInt n).saturate = Word.clamp n := by
  rw [ofInt, saturate_ofRatio_one, signed_eq_of_natAbs rfl (by simp)]

end Binary64

end RpnCalculator
