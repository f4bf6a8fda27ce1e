/-!
# Double precision numbers

`Binary64` is the set of values of the 64-bit binary floating-point format, given by their parts.
An arithmetic operation on integers is computed by rounding its exact result, a quotient of two
natural numbers with a sign, to the nearest value of the format (`ofRatio`, `ofInt`). So every
operation is correctly rounded by construction, and no arithmetic on rounded values is needed.

A finite value is `significand * 2 ^ exponent` with a sign. Both zeros have significand `0`, and
`ofRatio` always returns the form in which `toBits` reads off the stored bits: the significand is
below `2 ^ 53`, and below `2 ^ 52` only at the least exponent.
-/

namespace RpnCalculator

/-- A value of the 64-bit binary floating-point format. -/
inductive Binary64 where
  /-- The number `significand * 2 ^ exponent`, negated if `negative`. -/
  | finite (negative : Bool) (significand : Nat) (exponent : Int)
  | infinite (negative : Bool)
  /-- The value that stands for no number. -/
  | nan
deriving DecidableEq, Repr

namespace Binary64

/-- The exponent of the subnormal values, the least one. -/
def leastExponent : Int := -1074

/-- The exponent of the greatest finite value. -/
def greatestExponent : Int := 971

/-- The number of digits of a significand. -/
def precision : Nat := 53

/-- The zero of the given sign. -/
def zero (negative : Bool) : Binary64 := .finite negative 0 leastExponent

/-- The natural number nearest to `num / den`; of two equally near the even one. -/
def roundHalfEven (num den : Nat) : Nat :=
  if 2 * (num % den) < den then num / den
  else if den < 2 * (num % den) then num / den + 1
  else num / den + num / den % 2

/-- The quotient `num / den` divided by `2 ^ exponent`, again as a quotient. -/
def rescale (num den : Nat) (exponent : Int) : Nat × Nat :=
  (num <<< (-exponent).toNat, den <<< exponent.toNat)

/-- The greatest `e` with `2 ^ e ≤ num / den`, for positive `num` and `den`. The difference of the
lengths is that number or one more. -/
def floorLog (num den : Nat) : Int :=
  let estimate : Int := num.log2 - den.log2
  let scaled := rescale num den estimate
  if scaled.1 < scaled.2 then estimate - 1 else estimate

/-- The exponent of the grid on which `num / den` is rounded: the one that gives the significand
all its digits, but never below the least one. -/
def gridExponent (num den : Nat) : Int :=
  max leastExponent (floorLog num den - 52)

/-- The value `significand * 2 ^ exponent`, for a significand of at most `2 ^ 53`. It is written
with fewer digits if it has one too many, and is infinite if it exceeds the greatest finite value. -/
def normalize (negative : Bool) (significand : Nat) (exponent : Int) : Binary64 :=
  if significand = 1 <<< precision then
    if greatestExponent < exponent + 1 then .infinite negative
    else .finite negative (1 <<< (precision - 1)) (exponent + 1)
  else if greatestExponent < exponent then .infinite negative
  else .finite negative significand exponent

/-- The value nearest to `num / den`, of two equally near the one with an even significand; negated
if `negative`. A quotient of zero gives the zero of that sign. The denominator is positive. -/
def ofRatio (negative : Bool) (num den : Nat) : Binary64 :=
  if num = 0 then zero negative
  else
    let exponent := gridExponent num den
    let scaled := rescale num den exponent
    normalize negative (roundHalfEven scaled.1 scaled.2) exponent

/-- The value nearest to an integer. -/
def ofInt (n : Int) : Binary64 := ofRatio (n < 0) n.natAbs 1

/-- The integer part of a finite value, that is, the value without its fraction; `none` for the
infinities and for `nan`. -/
def truncate? : Binary64 → Option Int
  | .finite negative significand exponent =>
    let magnitude := (significand <<< exponent.toNat) >>> (-exponent).toNat
    some (if negative then -(magnitude : Int) else magnitude)
  | .infinite _ => none
  | .nan => none

/-- The highest bit, set for a negative value. -/
def signBit (negative : Bool) : Nat := if negative then 1 <<< 63 else 0

/-- The bits of the interchange format, as a number below `2 ^ 64`: the sign, eleven digits of
exponent and the fifty-two digits of the significand that follow its first. -/
def toBits : Binary64 → Nat
  | .finite negative significand exponent =>
    signBit negative + ((exponent - leastExponent).toNat <<< 52) + significand
  | .infinite negative => signBit negative + (2047 <<< 52)
  | .nan => (2047 <<< 52) + (1 <<< 51)

/-- Rounding moves a quotient by at most one half. -/
theorem roundHalfEven_near (num : Nat) {den : Nat} (h : 0 < den) :
    2 * num ≤ (2 * roundHalfEven num den + 1) * den ∧
      2 * roundHalfEven num den * den ≤ 2 * num + den := by
  have hsplit := Nat.div_add_mod num den
  have hlt := Nat.mod_lt num h
  simp only [roundHalfEven, Nat.mul_comm den] at hsplit ⊢
  rcases Nat.mod_two_eq_zero_or_one (num / den) with hparity | hparity <;>
    split <;> (try split) <;> simp only [hparity, Nat.add_mul, Nat.mul_add, Nat.mul_assoc] <;> omega

example : ofInt 1 = .finite false (1 <<< 52) (-52) := by decide +kernel

example : (ofRatio true 1 3).toBits = 0xbfd5555555555555 := by decide +kernel

end Binary64

end RpnCalculator
