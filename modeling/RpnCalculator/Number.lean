import RpnCalculator.Binary64
import RpnCalculator.Word

/-!
# Numbers offered to the stack

A number comes from a numeral or from the random sequence as an integer, and from an operator as a
double precision value. `Number.saturate` is the word that is kept of it: the fraction is dropped,
and what is out of range becomes the end of the range on its side.
-/

namespace RpnCalculator

/-- A number offered to the stack: an integer of any size or a double precision value. -/
inductive Number where
  | integer (n : Int)
  | real (x : Binary64)
deriving DecidableEq, Repr

/-- The word nearest to a double precision value without its fraction, and `0` for the value that
stands for no number. -/
def Binary64.saturate : Binary64 → Int
  | .infinite negative => if negative then Word.lowest else Word.highest
  | x => (x.truncate?.map Word.clamp).getD 0

/-- The word that is kept of a number. -/
def Number.saturate : Number → Int
  | .integer n => Word.clamp n
  | .real x => x.saturate

namespace Binary64

theorem saturate_infinite (negative : Bool) :
    (infinite negative).saturate = if negative then Word.lowest else Word.highest := rfl

theorem saturate_of_truncate? {x : Binary64} {n : Int} (h : x.truncate? = some n) :
    x.saturate = Word.clamp n := by
  cases x with
  | finite negative significand exponent => simp [saturate, h]
  | infinite negative => simp [truncate?] at h
  | nan => simp [truncate?] at h

theorem fits_saturate (x : Binary64) : Word.Fits x.saturate := by
  cases x with
  | finite negative significand exponent =>
      rw [saturate_of_truncate? rfl]
      exact Word.fits_clamp _
  | infinite negative => cases negative <;> decide
  | nan => decide

end Binary64

namespace Number

@[simp] theorem saturate_integer (n : Int) : (integer n).saturate = Word.clamp n := rfl

theorem fits_saturate (v : Number) : Word.Fits v.saturate := by
  cases v with
  | integer n => exact Word.fits_clamp n
  | real x => exact x.fits_saturate

end Number

end RpnCalculator
