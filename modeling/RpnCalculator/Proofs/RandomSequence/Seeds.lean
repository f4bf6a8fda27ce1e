import Mathlib.Data.Int.ModEq
import RpnCalculator.Proofs.RandomSequence.Feedback
import RpnCalculator.Proofs.RandomSequence.History

/-!
# The draws tell the seeds apart

A draw leaves out the lowest bit of the word that it writes. Two seeds whose draws agree have words
that are nearly the same: the difference of these words is bounded and obeys the feedback, so it is
zero (`stream_eq_of_output_eq`). Then the words before them agree too, since the feedback determines
the oldest of its three words by the other two, and so do the words taken over from the first three,
of which the first one is the seed.
-/

namespace RpnCalculator

namespace RandomSequence

theorem stream_lt (seed : Int) (i : Nat) : stream seed i < 4294967296 := by
  induction i using Nat.strong_induction_on with
  | _ i ih =>
      rw [stream]
      split
      · omega
      · split
        · omega
        · split
          · exact Nat.lt_trans (Nat.mod_lt _ (by decide)) (by decide)
          · split
            · exact ih (i - 31) (by omega)
            · exact Nat.mod_lt _ (by decide)

variable {s t : Int}

/-- By how much the words of one seed from number `344` on exceed those of another. -/
def difference (s t : Int) (n : Nat) : Int := stream s (n + 344) - stream t (n + 344)

theorem abs_difference_le (h : ∀ k, output s k = output t k) (n : Nat) : |difference s t n| ≤ 1 := by
  have hn := h n
  rw [output, output, Nat.add_comm] at hn
  rw [difference, abs_le]
  omega

/-- Words whose draws agree are too close to each other for the modulus to matter. -/
theorem feedback_difference (h : ∀ k, output s k = output t k) : Feedback (difference s t) := by
  intro n
  have hfar := abs_le.1 (abs_difference_le h n)
  have hnear := abs_le.1 (abs_difference_le h (n + 28))
  have hsum := abs_le.1 (abs_difference_le h (n + 31))
  have hfeedback (seed : Int) : stream seed (n + 31 + 344) =
      (stream seed (n + 344) + stream seed (n + 28 + 344)) % 4294967296 :=
    stream_feedback seed (n + 341)
  have hs := hfeedback s
  have ht := hfeedback t
  simp only [difference] at hfar hnear hsum ⊢
  omega

theorem stream_eq_of_output_eq (h : ∀ k, output s k = output t k) {n : Nat} (hn : 344 ≤ n) :
    stream s n = stream t n := by
  obtain ⟨k, rfl⟩ := Nat.exists_eq_add_of_le' hn
  have hzero := (feedback_difference h).eq_zero_of_bounded (abs_difference_le h) k
  rw [difference] at hzero
  omega

/-- The feedback runs backwards as far as it goes. -/
theorem stream_eq_of_later {place : Nat} (h : ∀ n, place + 3 ≤ n → stream s n = stream t n) {n : Nat}
    (hn : 3 ≤ n) : stream s n = stream t n := by
  induction place with
  | zero => exact h n hn
  | succ place ih =>
      refine ih fun i hi => ?_
      rcases Nat.lt_or_eq_of_le hi with hlater | rfl
      · exact h i (by omega)
      · have hs := stream_feedback s place
        have ht := stream_feedback t place
        have hlt := stream_lt s (place + 3)
        have hlt' := stream_lt t (place + 3)
        rw [h (place + 34) (by omega), h (place + 31) (by omega)] at hs
        omega

/-- The words of the sequence determine the signed seed. -/
theorem eq_of_output_eq (hs : Word.Fits s) (ht : Word.Fits t)
    (h : ∀ k, output s k = output t k) : s = t := by
  have hlater : ∀ n, 341 + 3 ≤ n → stream s n = stream t n :=
    fun n hn => stream_eq_of_output_eq h hn
  have hfirst : stream s 31 = stream t 31 := stream_eq_of_later hlater (by decide)
  rw [stream_takeover s (i := 0) (by decide), stream_takeover t (i := 0) (by decide), stream_zero,
    stream_zero] at hfirst
  rw [Word.fits_iff] at hs ht
  omega

/-- Every number of the unbounded sequence is drawn, the first `22` of them twice. -/
theorem next_after_restart (seed : Int) (k : Nat) :
    ((ofSeed seed).after (List.replicate (22 + k) .next)).next = output (Word.fold seed) k := by
  have hnext := next_after_replicate (tracks_ofSeed seed) (22 + k)
  rw [if_neg (by simp [ofSeed, restart]), restart, Nat.add_sub_cancel_left] at hnext
  exact hnext

/-- Some draw after one seed differs from that after another, unless the seeds are congruent modulo
`2 ^ 32`. -/
theorem exists_next_ne_iff (first second : Int) :
    (∃ n, ((ofSeed first).after (List.replicate n .next)).next ≠
        ((ofSeed second).after (List.replicate n .next)).next) ↔
      ¬ first ≡ second [ZMOD 4294967296] := by
  rw [← not_iff_not, not_not]
  push Not
  constructor
  · intro h
    have houtput (k : Nat) : output (Word.fold first) k = output (Word.fold second) k := by
      rw [← next_after_restart, ← next_after_restart, h]
    exact Word.fold_eq_fold_iff.1
      (eq_of_output_eq (Word.fits_fold first) (Word.fits_fold second) houtput)
  · intro h n
    rw [← ofSeed_fold first, ← ofSeed_fold second, Word.fold_eq_fold_iff.2 h]

end RandomSequence

end RpnCalculator
