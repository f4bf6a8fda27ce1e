import Mathlib.Algebra.Order.Ring.Int
import Mathlib.Algebra.Order.Ring.Basic
import Mathlib.Algebra.Ring.Int.Parity
import RpnCalculator.Machine.Line
import RpnCalculator.Proofs.Binary64
import RpnCalculator.Proofs.Machine.Step

/-!
# Exact results

An operator computes in double precision, but the machine keeps words. `Operator.result?` is the
result in unbounded integers, and the word that is kept is the word of that result: nothing of the
rounding, of the signs of zeros or of the infinities is left when a result is on the stack.

Every magnitude is that of the exact result; what has to be seen for each operator is that the sign
computed with it is right wherever it counts, that is, for all results but zero.
-/

namespace RpnCalculator

namespace Operator

/-- The result of an operator in unbounded integers, and none where the operator fails. A quotient is
truncated toward zero, and a remainder has the sign of the left operand. -/
def result? : Operator → Int → Int → Option Int
  | sub, left, right => some (left - right)
  | add, left, right => some (left + right)
  | mul, left, right => some (left * right)
  | div, left, right => if right = 0 then none else some (left.tdiv right)
  | mod, left, right => if left = 0 ∨ right = 0 then none else some (left.tmod right)
  | pow, left, right => if right < 0 then none else some (left ^ right.toNat)

variable {left right : Int}

theorem signsDiffer_iff :
    signsDiffer left right = true ↔ left < 0 ∧ 0 ≤ right ∨ 0 ≤ left ∧ right < 0 := by
  by_cases hleft : left < 0 <;> by_cases hright : right < 0 <;>
    simp [signsDiffer, hleft, hright] <;> omega

theorem signed_mul (left right : Int) :
    signed (signsDiffer left right) (left.natAbs * right.natAbs) = left * right := by
  refine signed_eq_of_natAbs (Int.natAbs_mul left right) fun hne => ?_
  have hleft := left_ne_zero_of_mul hne
  have hright := right_ne_zero_of_mul hne
  rw [signsDiffer_iff, mul_neg_iff]
  omega

theorem signed_tdiv (left right : Int) :
    signed (signsDiffer left right) (left.natAbs / right.natAbs) = left.tdiv right := by
  refine signed_eq_of_natAbs (Int.natAbs_tdiv left right) fun hne => ?_
  rw [signsDiffer_iff]
  rcases Int.lt_or_le left 0 with hleft | hleft <;>
    rcases Int.lt_or_le right 0 with hright | hright
  · have hsign := Int.tdiv_nonneg_of_nonpos_of_nonpos (Int.le_of_lt hleft) (Int.le_of_lt hright)
    omega
  · have hsign := Int.tdiv_nonneg (Int.neg_nonneg_of_nonpos (Int.le_of_lt hleft)) hright
    rw [Int.neg_tdiv] at hsign
    omega
  · have hsign := Int.tdiv_nonpos_of_nonneg_of_nonpos hleft (Int.le_of_lt hright)
    omega
  · have hsign := Int.tdiv_nonneg hleft hright
    omega

theorem signed_tmod (left right : Int) :
    signed (left < 0) (left.natAbs % right.natAbs) = left.tmod right := by
  refine signed_eq_of_natAbs (Int.natAbs_tmod left right) fun hne => ?_
  rw [decide_eq_true_iff]
  rcases Int.lt_or_le left 0 with hleft | hleft
  · have hsign := Int.tmod_nonneg right (Int.neg_nonneg_of_nonpos (Int.le_of_lt hleft))
    rw [Int.neg_tmod] at hsign
    omega
  · have hsign := Int.tmod_nonneg right hleft
    omega

theorem signed_pow (left : Int) (n : Nat) :
    signed (left < 0 && (n : Int) % 2 == 1) (left.natAbs ^ n) = left ^ n := by
  refine signed_eq_of_natAbs (Int.natAbs_pow left n) fun _ => ?_
  rw [Bool.and_eq_true, decide_eq_true_iff, beq_iff_eq]
  rcases Nat.even_or_odd n with heven | hodd
  · have hsign := heven.pow_nonneg left
    have hrem := Nat.even_iff.1 heven
    omega
  · have hrem := Nat.odd_iff.1 hodd
    rw [hodd.pow_neg_iff]
    omega

/-- A power that is not computed is the rounded one all the same. -/
theorem power_eq_ofRatio (left right : Int) :
    power left right =
      .ofRatio (left < 0 && right % 2 == 1) (left.natAbs ^ right.toNat) 1 := by
  rw [power]
  split
  · rename_i hlarge
    have hpower : 2 ^ right.toNat ≤ left.natAbs ^ right.toNat :=
      Nat.pow_le_pow_left hlarge.1 right.toNat
    rw [Binary64.ofRatio_one_eq_infinite _ (by omega) hpower]
  · rfl

theorem saturate_power (left : Int) {right : Int} (h : 0 ≤ right) :
    (power left right).saturate = Word.clamp (left ^ right.toNat) := by
  obtain ⟨n, rfl⟩ := Int.eq_ofNat_of_zero_le h
  rw [power_eq_ofRatio, Binary64.saturate_ofRatio_one, Int.toNat_natCast, signed_pow]

/-- Where an operator has an exact result, it has a double precision result with the same word. -/
theorem exists_apply_eq_ok {o : Operator} {n : Int} (hleft : Word.Fits left)
    (hright : Word.Fits right) (h : o.result? left right = some n) :
    ∃ x, o.apply left right = .ok x ∧ x.saturate = Word.clamp n := by
  rw [Word.fits_iff] at hleft hright
  cases o with
  | sub =>
      obtain rfl := Option.some.inj h
      exact ⟨_, rfl, Binary64.saturate_ofInt _⟩
  | add =>
      obtain rfl := Option.some.inj h
      exact ⟨_, rfl, Binary64.saturate_ofInt _⟩
  | mul =>
      obtain rfl := Option.some.inj h
      refine ⟨_, rfl, ?_⟩
      rw [Binary64.saturate_ofRatio_one, signed_mul]
  | div =>
      obtain ⟨hzero, rfl⟩ := by simpa [result?] using h
      refine ⟨_, by rw [apply, if_neg hzero], ?_⟩
      rw [Binary64.saturate_ofRatio_of_lt _ (by omega) (by omega) (by omega), signed_tdiv]
  | mod =>
      obtain ⟨⟨hzero, hzero'⟩, rfl⟩ := by simpa [result?] using h
      refine ⟨_, by rw [apply, if_neg hzero, if_neg hzero'], ?_⟩
      rw [Binary64.saturate_ofRatio_one, signed_tmod]
  | pow =>
      obtain ⟨hnonneg, rfl⟩ := by simpa [result?] using h
      refine ⟨_, by rw [apply, if_neg (Int.not_lt.2 hnonneg)], ?_⟩
      exact saturate_power left hnonneg

end Operator

namespace Machine

variable {m : Machine} {left right : Int} {values : List Int}

/-- An operator replaces its two operands by the word of the exact result, and prints nothing. -/
theorem applyOperator_eq_clamp_exact (hm : m.stack.Valid)
    (hvalues : m.stack.values = right :: left :: values) {o : Operator} {n : Int}
    (h : o.result? left right = some n) :
    m.applyOperator [o.symbol] = .idle (m.withValues (Word.clamp n :: values)) ∧
      (m.comment = false →
        m.feed ⟨.operator, [o.symbol]⟩ = .idle (m.withValues (Word.clamp n :: values))) := by
  have hvalid : (Stack.mk (right :: left :: values)).Valid := by rwa [← hvalues]
  have hroom : values.length < Stack.capacity := by
    have hsize : values.length + 2 ≤ Stack.capacity := hvalid.1
    omega
  obtain ⟨x, happly, hx⟩ := Operator.exists_apply_eq_ok (hvalid.2 left (by simp))
    (hvalid.2 right (by simp)) h
  have hresult := applyOperator_of_ok hvalues hroom happly
  rw [hx] at hresult
  refine ⟨hresult, fun hcomment => ?_⟩
  rw [feed, feedWith_operator hcomment, hresult]

/-- The quotient that is one too great for a word, with both operands at an end of their range. -/
theorem applyOperator_lowest_div :
    (Stack.mk [-1, -2147483648, 5]).Valid ∧
      Operator.div.result? (-2147483648) (-1) = some 2147483648 ∧
        ((ofSeed 1 false).withValues [-1, -2147483648, 5]).applyOperator ['/'] =
          .idle ((ofSeed 1 false).withValues [2147483647, 5]) := by
  have hvalid : (Stack.mk [-1, -2147483648, 5]).Valid := by decide
  have hresult : Operator.div.result? (-2147483648) (-1) = some 2147483648 := by decide
  have hdiv := applyOperator_eq_clamp_exact
    (m := (ofSeed 1 false).withValues [-1, -2147483648, 5]) hvalid rfl hresult
  exact ⟨hvalid, hresult, hdiv.1⟩

end Machine

end RpnCalculator
