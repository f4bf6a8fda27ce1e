import RpnCalculator.RandomSequence

/-!
# The unbounded sequence behind the table

`RandomSequence.stream` is the sequence of words that the table is a window of. It is defined by its
recurrence, on natural numbers and without a table: a congruential part, three words taken over, and
then sums of two earlier words for ever. The table of a seed holds its first `344` words
(`getD_tableOfSeed`). What a draw is worth is half of such a word, `RandomSequence.output`.

A generator that never stops keeps the latest words in a ring of cells, each word in the cell that its
number has modulo the number of cells (`Holds`). Writing the next word takes the place of the one word
that is older by the length of the ring.
-/

namespace RpnCalculator

namespace RandomSequence

/-- The words of the unbounded sequence of a signed seed. -/
def stream (seed : Int) (i : Nat) : Nat :=
  if i = 0 then (seed % 4294967296).toNat
  else if i = 1 then ((16807 * seed).tmod 2147483647 % 4294967296).toNat
  else if i ≤ 30 then 16807 * stream seed (i - 1) % 2147483647
  else if i ≤ 33 then stream seed (i - 31)
  else (stream seed (i - 31) + stream seed (i - 3)) % 4294967296
termination_by i

/-- The words after the first `344`, without their lowest bits. -/
def output (seed : Int) (k : Nat) : Nat := stream seed (344 + k) / 2

section Recurrence

variable (seed : Int)

theorem stream_zero : stream seed 0 = (seed % 4294967296).toNat := by
  rw [stream]
  rfl

theorem stream_one :
    stream seed 1 = ((16807 * seed).tmod 2147483647 % 4294967296).toNat := by
  rw [stream]
  rfl

theorem stream_congruential {i : Nat} (hpos : 1 ≤ i) (hlt : i < 30) :
    stream seed (i + 1) = 16807 * stream seed i % 2147483647 := by
  rw [stream, if_neg (by omega), if_neg (by omega), if_pos (by omega), Nat.add_sub_cancel]

theorem stream_takeover {i : Nat} (h : i < 3) : stream seed (i + 31) = stream seed i := by
  rw [stream, if_neg (by omega), if_neg (by omega), if_neg (by omega), if_pos (by omega),
    Nat.add_sub_cancel]

theorem stream_feedback (i : Nat) :
    stream seed (i + 34) = (stream seed (i + 3) + stream seed (i + 31)) % 4294967296 := by
  rw [stream, if_neg (by omega), if_neg (by omega), if_neg (by omega), if_neg (by omega)]
  rfl

end Recurrence

/-! Words in a ring of cells. -/

/-- The words from number `low` on and before number `high` are in their cells. -/
def Holds (cells : Array UInt32) (seed : Int) (low high : Nat) : Prop :=
  ∀ p, low ≤ p → p < high → (cells.getD (p % cells.size) 0).toNat = stream seed p

theorem Holds.mono {cells : Array UInt32} {seed : Int} {low high low' high' : Nat}
    (h : Holds cells seed low high) (hlow : low ≤ low') (hhigh : high' ≤ high) :
    Holds cells seed low' high' :=
  fun p hp hp' => h p (Nat.le_trans hlow hp) (Nat.lt_of_lt_of_le hp' hhigh)

theorem Holds.write {cells : Array UInt32} {seed : Int} {low high low' : Nat} {cell : UInt32}
    (h : Holds cells seed low high) (hcell : cell.toNat = stream seed high) (hlow : low ≤ low')
    (hlow' : high < low' + cells.size) (hle : low' ≤ high) :
    Holds (cells.setIfInBounds (high % cells.size) cell) seed low' (high + 1) := by
  intro p hp hp'
  rw [Array.size_setIfInBounds, Array.getD_eq_getD_getElem?, Array.getElem?_setIfInBounds,
    if_pos (Nat.mod_lt _ (by omega))]
  by_cases hnew : p = high
  · rw [hnew, if_pos rfl]
    exact hcell
  · -- Another word in this cell would be older by the length of the ring.
    have hother : high % cells.size ≠ p % cells.size := by
      intro heq
      have hzero := Nat.sub_mod_eq_zero_of_mod_eq heq
      rw [Nat.mod_eq_of_lt (by omega)] at hzero
      omega
    rw [if_neg hother, ← Array.getD_eq_getD_getElem?]
    exact h p (by omega) (by omega)

/-! The table of a seed. -/

/-- The cells of a table are the first words of the sequence. -/
def Begins (table : Array UInt32) (seed : Int) : Prop :=
  ∀ i, i < table.size → (table.getD i 0).toNat = stream seed i

theorem toNat_ofInt (n : Int) : (UInt32.ofInt n).toNat = (n % 4294967296).toNat := by
  have hlt : (n % 4294967296).toNat < 4294967296 := by omega
  exact Nat.mod_eq_of_lt hlt

/-- On words the remainder is that of natural numbers and needs no reduction. -/
theorem toNat_congruential (n : Nat) :
    (congruential n).toNat = 16807 * n % 2147483647 := by
  have hnonneg : (0 : Int) ≤ 16807 * n := by omega
  have hlt : ((16807 * n % 2147483647 : Nat) : Int) < 4294967296 :=
    Int.ofNat_lt.2 (Nat.lt_trans (Nat.mod_lt _ (by decide)) (by decide))
  have hcast : (16807 * n : Int).tmod 2147483647 = (16807 * n % 2147483647 : Nat) := by
    rw [Int.tmod_eq_emod_of_nonneg hnonneg, Int.natCast_emod, Int.natCast_mul]
    rfl
  rw [congruential, toNat_ofInt, hcast,
    Int.emod_eq_of_lt (Int.natCast_nonneg _) hlt, Int.toNat_natCast]

variable {table : Array UInt32} {seed : Int}

/-- A table is extended by the word that follows. -/
theorem Begins.push {cell : UInt32} (h : Begins table seed)
    (hcell : cell.toNat = stream seed table.size) : Begins (table.push cell) seed := by
  intro i hi
  rw [Array.size_push] at hi
  rw [Array.getD_eq_getD_getElem?, Array.getElem?_push]
  by_cases hlast : i = table.size
  · rw [if_pos hlast, hlast]
    exact hcell
  · rw [if_neg hlast, ← Array.getD_eq_getD_getElem?]
    exact h i (by omega)

theorem Begins.pushSeed (h : Begins table seed) (hlow : 2 ≤ table.size) (hhigh : table.size < 31) :
    Begins (pushSeed table) seed := by
  have hlast := h (table.size - 1) (by omega)
  refine h.push ?_
  rw [Array.back?_eq_getElem?, ← Array.getD_eq_getD_getElem?, toNat_congruential, hlast,
    ← stream_congruential seed (by omega) (by omega), Nat.sub_add_cancel (by omega)]

theorem Begins.pushFeedback (h : Begins table seed) (hlow : 31 ≤ table.size) :
    Begins (pushFeedback table) seed := by
  have hfar := h (table.size - 31) (by omega)
  have hnear := h (table.size - 3) (by omega)
  refine h.push ?_
  by_cases htakeover : table.size < 34
  · obtain ⟨i, hi⟩ : ∃ i, table.size = i + 31 := ⟨table.size - 31, by omega⟩
    rw [if_pos htakeover, UInt32.add_zero, hfar, hi, stream_takeover seed (by omega),
      Nat.add_sub_cancel]
  · obtain ⟨i, hi⟩ : ∃ i, table.size = i + 34 := ⟨table.size - 34, by omega⟩
    rw [if_neg htakeover, UInt32.toNat_add, hfar, hnear, hi, stream_feedback]
    rfl

/-- Steps that extend a table of a certain size by one word each. -/
theorem Begins.repeat {step : Array UInt32 → Array UInt32}
    (hsize : ∀ table, (step table).size = table.size + 1) (low high : Nat)
    (hstep : ∀ table, Begins table seed → low ≤ table.size → table.size < high →
      Begins (step table) seed)
    (count : Nat) (h : Begins table seed) (hlow : low ≤ table.size)
    (hhigh : table.size + count ≤ high) : Begins (Nat.repeat step count table) seed := by
  induction count with
  | zero => exact h
  | succ count ih =>
      have hcount := size_repeat hsize count table
      exact hstep _ (ih (by omega)) (by omega) (by omega)

theorem begins_tableOfSeed (seed : Int) : Begins (tableOfSeed seed) (Word.fold seed) := by
  have hstart : Begins #[UInt32.ofInt (Word.fold seed), congruential (Word.fold seed)]
      (Word.fold seed) := by
    intro i hi
    match i with
    | 0 => exact (toNat_ofInt _).trans (stream_zero _).symm
    | 1 => exact (toNat_ofInt _).trans (stream_one _).symm
    | _ + 2 => exact absurd hi (by simp)
  have hseeds := Begins.repeat size_pushSeed 2 31 (fun _ h => h.pushSeed) 29 hstart
    (Nat.le_refl 2) (Nat.le_refl 31)
  have hsize := size_repeat size_pushSeed 29
    #[UInt32.ofInt (Word.fold seed), congruential (Word.fold seed)]
  exact Begins.repeat size_pushFeedback 31 344 (fun _ h hlow _ => h.pushFeedback hlow) 313
    hseeds (Nat.le_of_eq hsize.symm) (Nat.le_of_eq (congrArg (· + 313) hsize))

/-- The cells of the table of a seed are the first words of the sequence of its signed word. -/
theorem getD_tableOfSeed (seed : Int) {i : Nat} (h : i < 344) :
    ((tableOfSeed seed).getD i 0).toNat = stream (Word.fold seed) i :=
  begins_tableOfSeed seed i ((size_tableOfSeed seed).symm ▸ h)

theorem holds_tableOfSeed (seed : Int) : Holds (tableOfSeed seed) (Word.fold seed) 0 344 := by
  intro p _ hp
  rw [size_tableOfSeed, size, Nat.mod_eq_of_lt hp]
  exact getD_tableOfSeed seed hp

end RandomSequence

end RpnCalculator
