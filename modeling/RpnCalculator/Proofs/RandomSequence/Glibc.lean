import Mathlib.Data.Int.GCD
import RpnCalculator.Proofs.RandomSequence.History

/-!
# The generator of glibc

The additive feedback generator of glibc, as `srandom` seeds it and `random` steps it: thirty-one
words, two positions that go around them, and each sum written where the front one stands. Its seeding
multiplies with the remainder split off first, so that no product leaves a signed word
(`fits_schrage_terms`).

The two generators begin with the same words for the positive seeds and for one negative seed
(`seedsAgree_iff`). A step of the generator continues the unbounded sequence of the seed, as a draw
does, so that from the same words on both yield the same numbers for ever.
-/

namespace RpnCalculator

open RandomSequence (stream output)

namespace Glibc

/-- The next word of the seeding: `16807 * word` modulo `2 ^ 31 - 1`. Quotient and remainder are
those of the truncated division. -/
def schrage (word : Int) : Int :=
  let next := 16807 * word.tmod 127773 - 2836 * word.tdiv 127773
  if next < 0 then next + 2147483647 else next

/-- The words of the seeding. A seed of zero is replaced by one. -/
def seeded (seed : Int) : Nat → Int
  | 0 => if seed = 0 then 1 else seed
  | i + 1 => schrage (seeded seed i)

/-- The state of the generator. -/
structure Generator where
  words : Array UInt32
  /-- The position of the word that is added to. -/
  front : Nat
  /-- The position of the word that is added. -/
  rear : Nat

/-- The generator of a seed, before any step. -/
def ofSeed (seed : Int) : Generator :=
  ⟨Array.ofFn fun i : Fin 31 => UInt32.ofInt (seeded seed i), 3, 0⟩

namespace Generator

def sum (g : Generator) : UInt32 := g.words.getD g.front 0 + g.words.getD g.rear 0

def result (g : Generator) : Nat := (g.sum >>> 1).toNat

/-- The state after a step. -/
def step (g : Generator) : Generator :=
  ⟨g.words.setIfInBounds g.front g.sum, (g.front + 1) % 31, (g.rear + 1) % 31⟩

end Generator

/-- Number `n` of a seed. The first `310` results are thrown away. -/
def number (seed : Int) (n : Nat) : Nat :=
  (Nat.repeat Generator.step (310 + n) (ofSeed seed)).result

/-! Seeding. -/

variable {seed : Int}

/-- Remainder and quotient are small enough for their products to stay in a signed word. -/
theorem bounds_of_fits {word : Int} (h : Word.Fits word) :
    (0 ≤ word.tmod 127773 ∧ word.tmod 127773 < 127773 ∧
        0 ≤ word.tdiv 127773 ∧ word.tdiv 127773 ≤ 16807) ∨
      (-127773 < word.tmod 127773 ∧ word.tmod 127773 ≤ 0 ∧
        -16807 ≤ word.tdiv 127773 ∧ word.tdiv 127773 ≤ 0) := by
  have hsplit := Int.tmod_add_mul_tdiv word 127773
  rw [Word.fits_iff] at h
  rcases Int.le_total 0 word with hnonneg | hnonpos
  · have hrem := Int.tmod_nonneg 127773 hnonneg
    have hlt := Int.tmod_lt_of_pos word (by decide : (0 : Int) < 127773)
    exact .inl (by omega)
  · have hrem := Int.tmod_nonneg 127773 (Int.neg_nonneg_of_nonpos hnonpos)
    have hlt := Int.tmod_lt_of_pos (-word) (by decide : (0 : Int) < 127773)
    rw [Int.neg_tmod] at hrem hlt
    exact .inr (by omega)

/-- On signed words the seeding never overflows, so that it may be computed in integers. -/
theorem fits_schrage_terms {word : Int} (h : Word.Fits word) :
    Word.Fits (16807 * word.tmod 127773) ∧ Word.Fits (2836 * word.tdiv 127773) ∧
      Word.Fits (16807 * word.tmod 127773 - 2836 * word.tdiv 127773) := by
  have hbounds := bounds_of_fits h
  generalize word.tmod 127773 = rem at hbounds ⊢
  generalize word.tdiv 127773 = quot at hbounds ⊢
  simp only [Word.fits_iff]
  omega

theorem schrage_eq {word : Int} (h : Word.Fits word) :
    schrage word = 16807 * word % 2147483647 := by
  have hsplit := Int.tmod_add_mul_tdiv word 127773
  have hbounds := bounds_of_fits h
  rw [schrage]
  generalize word.tmod 127773 = rem at hsplit hbounds ⊢
  generalize word.tdiv 127773 = quot at hsplit hbounds ⊢
  -- A multiple of the modulus is left out, and what remains is the residue, or that less the modulus.
  have hproduct : 16807 * word = 16807 * rem - 2836 * quot + 2147483647 * quot := by
    omega
  have hnext : -2147483647 < 16807 * rem - 2836 * quot ∧
      16807 * rem - 2836 * quot < 2147483647 := by
    omega
  rw [hproduct, Int.add_mul_emod_self_left]
  generalize 16807 * rem - 2836 * quot = next at hnext ⊢
  split
  · rw [← Int.add_emod_right, Int.emod_eq_of_lt (by omega) (by omega)]
  · rw [Int.emod_eq_of_lt (by omega) (by omega)]

theorem seeded_succ (h : Word.Fits seed) (i : Nat) :
    Word.Fits (seeded seed i) ∧ seeded seed (i + 1) = 16807 * seeded seed i % 2147483647 := by
  induction i with
  | zero =>
      have hfits : Word.Fits (seeded seed 0) := by
        rw [seeded]
        split
        · decide
        · exact h
      exact ⟨hfits, schrage_eq hfits⟩
  | succ i ih =>
      have hfits : Word.Fits (seeded seed (i + 1)) := by
        rw [ih.2, Word.fits_iff]
        omega
      exact ⟨hfits, schrage_eq hfits⟩

theorem seeded_succ_nonneg_lt (h : Word.Fits seed) (i : Nat) :
    0 ≤ seeded seed (i + 1) ∧ seeded seed (i + 1) < 2147483647 := by
  rw [(seeded_succ h i).2]
  exact ⟨Int.emod_nonneg _ (by decide), Int.emod_lt_of_pos _ (by decide)⟩

/-- From the second word on, the words of the seeding are those of the unbounded sequence, if the
second one is. -/
theorem stream_eq_seeded (h : Word.Fits seed)
    (hone : (16807 * seed).tmod 2147483647 = seeded seed 1) {i : Nat} (hi : i < 30) :
    (stream seed (i + 1) : Int) = seeded seed (i + 1) := by
  induction i with
  | zero =>
      obtain ⟨hnonneg, hlt⟩ := seeded_succ_nonneg_lt h 0
      rw [RandomSequence.stream_one, hone, Int.emod_eq_of_lt hnonneg (by omega)]
      exact Int.toNat_of_nonneg hnonneg
  | succ i ih =>
      rw [RandomSequence.stream_congruential seed (by omega) (by omega), (seeded_succ h (i + 1)).2,
        ← ih (by omega)]
      rfl

theorem eq_of_dvd_of_neg (h : Word.Fits seed) (hneg : seed < 0)
    (hdvd : 2147483647 ∣ 16807 * seed) : seed = -2147483647 := by
  obtain ⟨q, rfl⟩ := Int.dvd_of_dvd_mul_right_of_gcd_one hdvd (by decide)
  rw [Word.fits_iff] at h
  omega

/-- The truncated remainder of a negative number is no residue, unless it is zero. -/
theorem tmod_eq_emod_iff (h : Word.Fits seed) :
    (16807 * seed).tmod 2147483647 = 16807 * seed % 2147483647 ↔
      0 ≤ seed ∨ seed = -2147483647 := by
  constructor
  · intro heq
    by_cases hnonneg : 0 ≤ seed
    · exact .inl hnonneg
    · have hneg : seed < 0 := Int.not_le.1 hnonneg
      have hresidue := Int.emod_nonneg (16807 * seed) (by decide : (2147483647 : Int) ≠ 0)
      have hremainder := Int.tmod_nonneg (a := -(16807 * seed)) 2147483647 (by omega)
      rw [Int.neg_tmod, heq] at hremainder
      have hzero := Int.le_antisymm (Int.neg_nonneg.1 hremainder) hresidue
      exact .inr (eq_of_dvd_of_neg h hneg (Int.dvd_of_emod_eq_zero hzero))
  · rintro (hnonneg | rfl)
    · exact Int.tmod_eq_emod_of_nonneg (by omega)
    · rfl

/-- The table of a seed begins with the words that the generator has when it is seeded with the same
signed word. -/
def SeedsAgree (seed : Int) : Prop :=
  ∀ i < 31, (RandomSequence.ofSeed seed).table.getD i 0 =
    (ofSeed (Word.fold seed)).words.getD i 0

theorem toNat_getD_words_ofSeed (seed : Int) {i : Nat} (hi : i < 31) :
    ((ofSeed seed).words.getD i 0).toNat = (seeded seed i % 4294967296).toNat := by
  rw [ofSeed, Array.getD_eq_getD_getElem?, Array.getElem?_ofFn, dif_pos hi, Option.getD_some,
    RandomSequence.toNat_ofInt]

theorem seedsAgree_iff_stream (seed : Int) :
    SeedsAgree seed ↔ ∀ i < 31, stream (Word.fold seed) i =
      (seeded (Word.fold seed) i % 4294967296).toNat := by
  refine forall₂_congr fun i hi => ?_
  rw [← UInt32.toNat_inj, toNat_getD_words_ofSeed _ hi, RandomSequence.ofSeed,
    RandomSequence.getD_tableOfSeed seed (by omega)]

/-- Two numbers that are nearer to each other than `2 ^ 32` do not share a residue. -/
theorem eq_of_toNat_emod_eq {a b : Int} (ha : -2147483647 < a) (ha' : a < 2147483647)
    (hb : 0 ≤ b) (hb' : b < 2147483647)
    (h : (a % 4294967296).toNat = (b % 4294967296).toNat) : a = b := by
  rw [Int.emod_eq_of_lt hb (by omega)] at h
  omega

/-- The seeds that both generators treat alike. -/
theorem seedsAgree_iff (seed : Int) :
    SeedsAgree seed ↔ 1 ≤ Word.fold seed ∨ Word.fold seed = -2147483647 := by
  have hfits := Word.fits_fold seed
  rw [seedsAgree_iff_stream]
  generalize Word.fold seed = s at hfits ⊢
  have hsecond (hzero : s ≠ 0) : seeded s 1 = 16807 * s % 2147483647 := by
    rw [(seeded_succ hfits 0).2, seeded, if_neg hzero]
  constructor
  · -- The first word tells zero from its replacement, the second one the sign of the seed.
    intro h
    have hzero : s ≠ 0 := by
      rintro rfl
      exact absurd (h 0 (by decide)) (by rw [RandomSequence.stream_zero]; decide)
    have hbounds := seeded_succ_nonneg_lt hfits 0
    have hone := eq_of_toNat_emod_eq (Int.lt_tmod_of_pos _ (by decide))
      (Int.tmod_lt_of_pos _ (by decide)) hbounds.1 hbounds.2
      ((RandomSequence.stream_one s).symm.trans (h 1 (by decide)))
    rcases (tmod_eq_emod_iff hfits).1 (hone.trans (hsecond hzero)) with hnonneg | hlowest
    · exact .inl (by omega)
    · exact .inr hlowest
  · intro h i hi
    have hzero : s ≠ 0 := by omega
    have hone := (tmod_eq_emod_iff hfits).2 (h.imp_left fun hpos => by omega)
    cases i with
    | zero => rw [RandomSequence.stream_zero, seeded, if_neg hzero]
    | succ i =>
        have heq := stream_eq_seeded hfits (hone.trans (hsecond hzero).symm) (i := i) (by omega)
        obtain ⟨hnonneg, hlt⟩ := seeded_succ_nonneg_lt hfits i
        rw [Int.emod_eq_of_lt hnonneg (by omega), ← heq, Int.toNat_natCast]

/-! Steps. -/

/-- The next step of `g` writes word number `j + 34` of the sequence of a seed. -/
structure Follows (g : Generator) (seed : Int) (j : Nat) : Prop where
  size_eq : g.words.size = 31
  front_eq : g.front = (j + 3) % 31
  rear_eq : g.rear = j % 31
  holds : RandomSequence.Holds g.words seed (j + 3) (j + 34)

namespace Follows

variable {g : Generator} {j : Nat}

theorem toNat_sum (h : Follows g seed j) : g.sum.toNat = stream seed (j + 34) := by
  have hfront := h.holds (j + 3) (by omega) (by omega)
  have hrear := h.holds (j + 31) (by omega) (by omega)
  rw [h.size_eq] at hfront hrear
  rw [Nat.add_mod_right] at hrear
  rw [Generator.sum, h.front_eq, h.rear_eq, UInt32.toNat_add, hfront, hrear,
    RandomSequence.stream_feedback]

theorem step (h : Follows g seed j) : Follows g.step seed (j + 1) := by
  have hsize := h.size_eq
  have hfront : g.front = (j + 34) % g.words.size := by
    rw [hsize, h.front_eq]
    omega
  refine ⟨?_, ?_, ?_, ?_⟩
  · rw [Generator.step, Array.size_setIfInBounds, hsize]
  · rw [Generator.step, h.front_eq, Nat.mod_add_mod, Nat.add_right_comm]
  · rw [Generator.step, h.rear_eq, Nat.mod_add_mod]
  · rw [Generator.step, hfront]
    exact h.holds.write h.toNat_sum (by omega) (by omega) (by omega)

theorem repeat_step (h : Follows g seed 0) (count : Nat) :
    Follows (Nat.repeat Generator.step count g) seed count := by
  induction count with
  | zero => exact h
  | succ count ih => exact ih.step

theorem result_eq (h : Follows g seed j) : g.result = stream seed (j + 34) / 2 := by
  rw [Generator.result, UInt32.toNat_shiftRight, h.toNat_sum]
  exact Nat.shiftRight_eq_div_pow _ 1

end Follows

theorem SeedsAgree.follows (h : SeedsAgree seed) :
    Follows (ofSeed (Word.fold seed)) (Word.fold seed) 0 := by
  have hsize : (ofSeed (Word.fold seed)).words.size = 31 := Array.size_ofFn
  refine ⟨hsize, rfl, rfl, fun p hlow hhigh => ?_⟩
  have hseed {i : Nat} (hi : i < 31) : ((ofSeed (Word.fold seed)).words.getD i 0).toNat =
      stream (Word.fold seed) i := by
    rw [← h i hi]
    exact RandomSequence.getD_tableOfSeed seed (by omega)
  rw [hsize]
  by_cases hp : p < 31
  · rw [Nat.mod_eq_of_lt hp, hseed hp]
  · -- The three words taken over stand in the cells of the words they repeat.
    obtain ⟨i, rfl⟩ : ∃ i, p = i + 31 := ⟨p - 31, by omega⟩
    rw [Nat.add_mod_right, Nat.mod_eq_of_lt (by omega), hseed (by omega),
      RandomSequence.stream_takeover _ (by omega)]

theorem SeedsAgree.number_eq (h : SeedsAgree seed) (n : Nat) :
    number (Word.fold seed) n = output (Word.fold seed) n := by
  rw [number, (h.follows.repeat_step (310 + n)).result_eq, output,
    Nat.add_right_comm]

/-- The first thirty-one cells of the table are the words of the seeding of glibc for the seeds that
fold to a positive word or to `-(2 ^ 31 - 1)`, and for no others. For these seeds the draws are the
numbers of glibc, the first `22` of them twice. -/
theorem seedsAgree_iff_and_next_eq_number (seed : Int) :
    (SeedsAgree seed ↔ 1 ≤ Word.fold seed ∨ Word.fold seed = -2147483647) ∧
      (SeedsAgree seed → ∀ n,
        ((RandomSequence.ofSeed seed).after (List.replicate n .next)).next =
          if n < 22 then number (Word.fold seed) n else number (Word.fold seed) (n - 22)) := by
  refine ⟨seedsAgree_iff seed, fun h n => ?_⟩
  have hnext := RandomSequence.next_after_replicate (RandomSequence.tracks_ofSeed seed) n
  rw [hnext, h.number_eq, h.number_eq]
  simp [RandomSequence.ofSeed, RandomSequence.restart]

/-- The one negative word for which the seedings agree, from a seed that has to be folded. -/
theorem next_eq_number_of_negative :
    SeedsAgree 2147483649 ∧
      ((RandomSequence.ofSeed 2147483649).after (List.replicate 25 .next)).next =
        number (-2147483647) 3 := by
  have hfold : Word.fold 2147483649 = -2147483647 := by decide
  obtain ⟨hiff, hnumbers⟩ := seedsAgree_iff_and_next_eq_number 2147483649
  have hagree : SeedsAgree 2147483649 := hiff.2 (.inr hfold)
  have hnext := hnumbers hagree 25
  rw [if_neg (by decide), hfold] at hnext
  exact ⟨hagree, hnext⟩

example : number 1 0 = 1804289383 := by decide +kernel

end Glibc

end RpnCalculator
