/-!
# Machine words

The calculator keeps integers of a signed 32-bit word. This file names the two ends of that range
and the two ways of bringing an integer into it: `Word.clamp`, which goes to the nearer end, and
`Word.fold`, which goes around. A word is kept as an `Int`, so that the arithmetic between two
clampings is that of the integers; `Word.Fits` says that an integer is in range.
-/

namespace RpnCalculator

namespace Word

/-- The least word. -/
def lowest : Int := -2147483648

/-- The greatest word. -/
def highest : Int := 2147483647

/-- An integer fits when it lies between the least and the greatest word, ends included. -/
def Fits (n : Int) : Prop := lowest ≤ n ∧ n ≤ highest

instance (n : Int) : Decidable (Fits n) :=
  inferInstanceAs (Decidable (lowest ≤ n ∧ n ≤ highest))

/-- The word nearest to an integer. -/
def clamp (n : Int) : Int := max lowest (min highest n)

/-- The word congruent to an integer modulo `2 ^ 32`. -/
def fold (n : Int) : Int := n.bmod 4294967296

theorem fits_iff {n : Int} : Fits n ↔ -2147483648 ≤ n ∧ n ≤ 2147483647 := Iff.rfl

theorem fits_clamp (n : Int) : Fits (clamp n) := by
  simp only [fits_iff, clamp, lowest, highest]
  omega

theorem clamp_of_fits {n : Int} (h : Fits n) : clamp n = n := by
  simp only [fits_iff] at h
  simp only [clamp, lowest, highest]
  omega

@[simp] theorem clamp_clamp (n : Int) : clamp (clamp n) = clamp n :=
  clamp_of_fits (fits_clamp n)

theorem clamp_of_le_lowest {n : Int} (h : n ≤ lowest) : clamp n = lowest := by
  simp only [lowest] at h
  simp only [clamp, lowest, highest]
  omega

theorem clamp_of_highest_le {n : Int} (h : highest ≤ n) : clamp n = highest := by
  simp only [highest] at h
  simp only [clamp, lowest, highest]
  omega

/-- The fold is the residue below `2 ^ 31`, and the residue less `2 ^ 32` from there on. -/
theorem fold_eq (n : Int) :
    fold n =
      if n % 4294967296 < 2147483648 then n % 4294967296 else n % 4294967296 - 4294967296 := by
  simp [fold, Int.bmod_def]

theorem fits_fold (n : Int) : Fits (fold n) := by
  rw [fits_iff, fold_eq]
  split <;> omega

/-- Folding depends on the residue class alone. -/
theorem fold_eq_fold_iff {m n : Int} :
    fold m = fold n ↔ m % 4294967296 = n % 4294967296 := by
  rw [fold_eq, fold_eq]
  split <;> split <;> omega

theorem fold_of_fits {n : Int} (h : Fits n) : fold n = n := by
  rw [fits_iff] at h
  rw [fold_eq]
  split <;> omega

end Word

end RpnCalculator
