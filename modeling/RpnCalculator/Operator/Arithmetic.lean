import RpnCalculator.Binary64
import RpnCalculator.Operator
import RpnCalculator.Report

/-!
# Arithmetic

What an operator makes of two words. Each result is the exact one rounded to double precision; it is
not yet a word. Two rules are peculiar to this calculator: a remainder complains about a *left*
operand of zero, and a remainder by zero is no error of the user but an arithmetic fault.
-/

namespace RpnCalculator

namespace Operator

/-- Whether just one of two integers is negative. -/
def signsDiffer (left right : Int) : Bool := (left < 0) ^^ (right < 0)

/-- The double precision value of `left ^ right`, for a `right` that is not negative. It is negative
for a negative `left` and an odd `right`. From the exponent `1024` on every power of a number
greater than one is out of the range of the format, so it is not computed. -/
def power (left right : Int) : Binary64 :=
  let negative : Bool := left < 0 && right % 2 == 1
  if 2 ≤ left.natAbs ∧ 1024 ≤ right then .infinite negative
  else .ofRatio negative (Nat.pow left.natAbs right.toNat) 1

/-- The result of an operator, or why it has none. Signs of zeros are kept: a product or quotient is
negative if just one operand is, a remainder if the left operand is. -/
def apply : Operator → Int → Int → Except Failure Binary64
  | sub, left, right => .ok (.ofInt (left - right))
  | add, left, right => .ok (.ofInt (left + right))
  | mul, left, right =>
    .ok (.ofRatio (signsDiffer left right) (left.natAbs * right.natAbs) 1)
  | div, left, right =>
    if right = 0 then .error (.complaint .divisionByZero)
    else .ok (.ofRatio (signsDiffer left right) left.natAbs right.natAbs)
  | mod, left, right =>
    if left = 0 then .error (.complaint .divisionByZero)
    else if right = 0 then .error .arithmeticFault
    else .ok (.ofRatio (left < 0) (left.natAbs % right.natAbs) 1)
  | pow, left, right =>
    if right < 0 then .error (.complaint .negativePower)
    else .ok (power left right)

/-- What an operator complains about. -/
theorem apply_eq_complaint_iff {o : Operator} {left right : Int} {cause : Complaint} :
    o.apply left right = .error (.complaint cause) ↔
      (o = div ∧ right = 0 ∧ cause = .divisionByZero) ∨
        (o = mod ∧ left = 0 ∧ cause = .divisionByZero) ∨
          (o = pow ∧ right < 0 ∧ cause = .negativePower) := by
  cases o with
  | sub => simp [apply]
  | add => simp [apply]
  | mul => simp [apply]
  | div => by_cases h : right = 0 <;> simp [apply, h, eq_comm]
  | mod => by_cases h : left = 0 <;> by_cases h' : right = 0 <;> simp [apply, h, h', eq_comm]
  | pow => by_cases h : right < 0 <;> simp [apply, h, eq_comm]

/-- The one way to an arithmetic fault. -/
theorem apply_eq_arithmeticFault_iff {o : Operator} {left right : Int} :
    o.apply left right = .error .arithmeticFault ↔ o = mod ∧ left ≠ 0 ∧ right = 0 := by
  cases o with
  | sub => simp [apply]
  | add => simp [apply]
  | mul => simp [apply]
  | div => by_cases h : right = 0 <;> simp [apply, h]
  | mod => by_cases h : left = 0 <;> by_cases h' : right = 0 <;> simp [apply, h, h']
  | pow => by_cases h : right < 0 <;> simp [apply, h]

/-- An operator fails in no other way. -/
theorem eq_of_apply_eq_error {o : Operator} {left right : Int} {failure : Failure}
    (h : o.apply left right = .error failure) :
    failure = .arithmeticFault ∨ ∃ cause, failure = .complaint cause := by
  cases o <;> simp only [apply] at h <;> (repeat' split at h) <;> cases h <;> simp

end Operator

end RpnCalculator
