import Mathlib.Algebra.BigOperators.Intervals
import Mathlib.Algebra.BigOperators.Ring.Finset
import Mathlib.Algebra.Order.BigOperators.Group.Finset
import Mathlib.Data.Fintype.EquivFin
import Mathlib.Data.Fintype.Pi
import Mathlib.Data.Int.Interval
import Mathlib.Data.Nat.Periodic
import Mathlib.Tactic.LinearCombination
import Mathlib.Tactic.Ring

/-!
# The feedback in the integers

Two sequences of words that differ in their lowest bits only differ by `-1`, `0` or `1`, and as long
as that is so their difference obeys the feedback of the words in the integers, without a modulus. A
bounded sequence of integers that obeys it is zero (`Feedback.eq_zero_of_bounded`).

Such a sequence has the same `31` values in a row at two places, so it is periodic from the first of
them on. Over a period, the products of values that are a fixed distance apart have a sum that does
not depend on where it begins, the `correlation` of that distance. The feedback ties these sums to
each other so closely that the squares of `d (i + 6) - d (i + 3) + d i` sum up to zero. So all of them
are zero, and this shorter recurrence and the feedback together admit nothing but zeros.
-/

namespace RpnCalculator

namespace RandomSequence

/-- The feedback of the words, on integers. -/
def Feedback (d : Nat → Int) : Prop := ∀ i, d (i + 31) = d (i + 28) + d i

/-- The sum over one period of the products of values that are `lag` places apart. -/
def correlation (d : Nat → Int) (period lag : Nat) : Int := ∑ i ∈ Finset.range period, d i * d (i + lag)

/-- Over a period, a sum does not depend on where it begins. -/
theorem sum_range_add_of_periodic {g : Nat → Int} {period : Nat} (h : Function.Periodic g period)
    (place : Nat) :
    ∑ i ∈ Finset.range period, g (i + place) = ∑ i ∈ Finset.range period, g i := by
  induction place with
  | zero => rfl
  | succ place ih =>
      have hends : g (period + place) = g (0 + place) := by
        rw [Nat.zero_add, Nat.add_comm, h]
      have hboth := (Finset.sum_range_succ' (fun i => g (i + place)) period).symm.trans
        (Finset.sum_range_succ (fun i => g (i + place)) period)
      calc ∑ i ∈ Finset.range period, g (i + (place + 1))
          = ∑ i ∈ Finset.range period, g (i + 1 + place) :=
            Finset.sum_congr rfl fun i _ => congrArg g (by rw [Nat.add_right_comm, Nat.add_assoc])
        _ = ∑ i ∈ Finset.range period, g (i + place) := by
            rw [hends] at hboth
            exact add_right_cancel hboth
        _ = ∑ i ∈ Finset.range period, g i := ih

theorem sum_mul_eq_correlation {d : Nat → Int} {period : Nat} (h : Function.Periodic d period)
    (place lag : Nat) :
    ∑ i ∈ Finset.range period, d (i + place) * d (i + (place + lag)) = correlation d period lag := by
  have hproduct : Function.Periodic (fun i => d i * d (i + lag)) period := by
    intro i
    simp only [Nat.add_right_comm i period lag, h i, h (i + lag)]
  simp only [← Nat.add_assoc]
  exact sum_range_add_of_periodic hproduct place

namespace Feedback

variable {d : Nat → Int} {period : Nat}

theorem tail (h : Feedback d) (place : Nat) : Feedback fun i => d (i + place) := by
  intro i
  have hplace := h (i + place)
  rwa [Nat.add_right_comm i place 31, Nat.add_right_comm i place 28] at hplace

/-- The feedback runs backwards: what it leads to zeros began with zeros. -/
theorem eq_zero_of_tail (h : Feedback d) {place : Nat} (hplace : ∀ i, d (i + place) = 0) (i : Nat) :
    d i = 0 := by
  induction place generalizing d i with
  | zero => exact hplace i
  | succ place ih =>
      have hnext : ∀ j, d (j + 1) = 0 := ih (h.tail 1) hplace
      have hback := h i
      rwa [hnext (i + 30), hnext (i + 27), zero_add, eq_comm] at hback

/-- Values agree for ever after two places that are followed by the same `31` of them. -/
theorem eq_of_window_eq (h : Feedback d) {place other : Nat}
    (hwindow : ∀ j < 31, d (j + place) = d (j + other)) (j : Nat) :
    d (j + place) = d (j + other) := by
  induction j using Nat.strong_induction_on with
  | _ j ih =>
      rcases Nat.lt_or_ge j 31 with hlt | hge
      · exact hwindow j hlt
      · obtain ⟨i, rfl⟩ := Nat.exists_eq_add_of_le' hge
        calc d (i + 31 + place)
            = d (i + 28 + place) + d (i + place) := h.tail place i
          _ = d (i + 28 + other) + d (i + other) := by
              rw [ih (i + 28) (by omega), ih i (by omega)]
          _ = d (i + 31 + other) := (h.tail other i).symm

/-- A bounded sequence is periodic from some place on. -/
theorem exists_periodic_of_bounded (h : Feedback d) {bound : Int} (hbound : ∀ i, |d i| ≤ bound) :
    ∃ place period, 0 < period ∧ Function.Periodic (fun i => d (i + place)) period := by
  have hmem (i : Nat) : d i ∈ Set.Icc (-bound) bound := abs_le.1 (hbound i)
  obtain ⟨place, other, hne, heq⟩ := Finite.exists_ne_map_eq_of_infinite
    fun (place : Nat) (j : Fin 31) => (⟨d (j + place), hmem _⟩ : Set.Icc (-bound) bound)
  wlog hlt : place < other generalizing place other
  · exact this other place hne.symm heq.symm (by omega)
  have hwindow : ∀ j < 31, d (j + place) = d (j + other) := fun j hj =>
    congrArg Subtype.val (congrFun heq ⟨j, hj⟩)
  refine ⟨place, other - place, Nat.sub_pos_of_lt hlt, fun i => ?_⟩
  have hafter := (h.eq_of_window_eq hwindow i).symm
  rwa [show i + other = i + (other - place) + place by omega] at hafter

/-! What the feedback says about the correlations of a periodic sequence. -/

theorem correlation_zero (h : Feedback d) (hperiod : Function.Periodic d period) :
    correlation d period 0 = 2 * correlation d period 3 := by
  have hsquare (i : Nat) : d (i + 31) * d (i + 31) + d (i + 28) * d (i + 28) =
      d (i + 0) * d (i + 0) + 2 * (d (i + 28) * d (i + 31)) := by
    linear_combination (d (i + 31) - d (i + 28) + d i) * h i
  have hsum := Finset.sum_congr (Eq.refl (Finset.range period)) fun i _ => hsquare i
  rw [Finset.sum_add_distrib, Finset.sum_add_distrib, ← Finset.mul_sum,
    sum_mul_eq_correlation hperiod 31 0, sum_mul_eq_correlation hperiod 28 0,
    sum_mul_eq_correlation hperiod 0 0, sum_mul_eq_correlation hperiod 28 3] at hsum
  linear_combination hsum

theorem correlation_six (h : Feedback d) (hperiod : Function.Periodic d period) :
    correlation d period 6 = correlation d period 3 - correlation d period 0 := by
  have hproduct (i : Nat) : d (i + 31) * d (i + 34) + d (i + 28) * d (i + 31) =
      d (i + 0) * d (i + 3) + d (i + 31) * d (i + 31) + d (i + 28) * d (i + 34) := by
    have hlater : d (i + 34) = d (i + 31) + d (i + 3) := h (i + 3)
    linear_combination (d (i + 34) - d (i + 31)) * h i + d i * hlater
  have hsum := Finset.sum_congr (Eq.refl (Finset.range period)) fun i _ => hproduct i
  rw [Finset.sum_add_distrib, Finset.sum_add_distrib, Finset.sum_add_distrib,
    sum_mul_eq_correlation hperiod 31 3, sum_mul_eq_correlation hperiod 28 3,
    sum_mul_eq_correlation hperiod 0 3, sum_mul_eq_correlation hperiod 31 0,
    sum_mul_eq_correlation hperiod 28 6] at hsum
  linear_combination - hsum

/-- A periodic sequence obeys a shorter recurrence too. -/
theorem add_six_eq (h : Feedback d) (hpos : 0 < period) (hperiod : Function.Periodic d period)
    (i : Nat) : d (i + 6) = d (i + 3) - d i := by
  have hexpand : ∑ i ∈ Finset.range period, (d (i + 6) - d (i + 3) + d i) ^ 2 =
      3 * correlation d period 0 - 4 * correlation d period 3 + 2 * correlation d period 6 := by
    have hproducts (i : Nat) : (d (i + 6) - d (i + 3) + d i) ^ 2 =
        d (i + 6) * d (i + 6) + d (i + 3) * d (i + 3) + d (i + 0) * d (i + 0) +
            2 * (d (i + 0) * d (i + 6)) -
          2 * (d (i + 3) * d (i + 6)) - 2 * (d (i + 0) * d (i + 3)) := by
      simp only [Nat.add_zero]
      ring
    simp only [hproducts, Finset.sum_sub_distrib, Finset.sum_add_distrib, ← Finset.mul_sum]
    rw [sum_mul_eq_correlation hperiod 6 0, sum_mul_eq_correlation hperiod 3 0,
      sum_mul_eq_correlation hperiod 0 0, sum_mul_eq_correlation hperiod 0 6,
      sum_mul_eq_correlation hperiod 3 3, sum_mul_eq_correlation hperiod 0 3]
    ring
  have hzero : ∑ i ∈ Finset.range period, (d (i + 6) - d (i + 3) + d i) ^ 2 = 0 := by
    rw [hexpand, h.correlation_six hperiod, h.correlation_zero hperiod]
    ring
  -- A sum of squares is zero only if all of them are, so the residue is zero within one period.
  have hall := (Finset.sum_eq_zero_iff_of_nonneg fun i _ => sq_nonneg _).1 hzero
  have hresidue : Function.Periodic (fun i => d (i + 6) - d (i + 3) + d i) period := by
    intro i
    simp only [Nat.add_right_comm i period, hperiod i, hperiod (i + 6), hperiod (i + 3)]
  have hi := hall (i % period) (Finset.mem_range.2 (Nat.mod_lt i hpos))
  rw [pow_eq_zero_iff two_ne_zero, hresidue.map_mod_nat i] at hi
  linear_combination hi

/-- The two recurrences together admit nothing but zeros. -/
theorem eq_zero_of_periodic (h : Feedback d) (hpos : 0 < period)
    (hperiod : Function.Periodic d period) (i : Nat) : d i = 0 := by
  have hsix := h.add_six_eq hpos hperiod
  -- By the shorter recurrence `18` is a period, by both of them `34` is, hence so is their greatest
  -- common divisor.
  have hnine (j : Nat) : d (j + 9) = - d j := by
    have hnear := hsix j
    have hfar : d (j + 9) = d (j + 6) - d (j + 3) := hsix (j + 3)
    linear_combination hfar + hnear
  have heighteen (j : Nat) : d (j + 18) = d j := by
    have hfar : d (j + 18) = - d (j + 9) := hnine (j + 9)
    linear_combination hfar - hnine j
  have hthirtyFour (j : Nat) : d (j + 34) = d j := by
    have hfar : d (j + 34) = d (j + 31) - d (j + 28) := hsix (j + 28)
    linear_combination hfar + h j
  have htwo (j : Nat) : d (j + 2) = d j := by
    have hback : d (j + 36) = d (j + 2) := hthirtyFour (j + 2)
    have hforth : d (j + 36) = d (j + 18) := heighteen (j + 18)
    linear_combination hforth - hback + heighteen j
  have hback (j : Nat) : d (j + 6) = d j := (htwo (j + 4)).trans ((htwo (j + 2)).trans (htwo j))
  have hthree : d (i + 3) = - d i := (hback (i + 3)).symm.trans (hnine i)
  have hlast := hsix i
  rw [hback, hthree] at hlast
  omega

/-- A bounded sequence of integers that obeys the feedback is zero. -/
theorem eq_zero_of_bounded (h : Feedback d) {bound : Int} (hbound : ∀ i, |d i| ≤ bound) (i : Nat) :
    d i = 0 := by
  obtain ⟨place, period, hpos, hperiod⟩ := h.exists_periodic_of_bounded hbound
  exact h.eq_zero_of_tail ((h.tail place).eq_zero_of_periodic hpos hperiod) i

end Feedback

end RandomSequence

end RpnCalculator
