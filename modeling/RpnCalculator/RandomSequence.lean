import RpnCalculator.Word

/-!
# The random sequence

An additive feedback generator over 32-bit words. Its table has `344` cells; each draw overwrites
the cell at the index with the sum of two older cells and yields that sum without its lowest bit.
The first thirty-one cells come from a multiplicative congruential generator, the rest from the
feedback itself.

The sequence starts over once: after the first `22` draws the index goes back to the start, and the
next `22` draws write the same cells again, since the summands are the old ones or rewritten with
the values they have. The flag `repeated` records that this must not happen twice; seeding anew does
not clear it.
-/

namespace RpnCalculator

/-- The state of the random sequence. -/
@[ext] structure RandomSequence where
  table : Array UInt32
  /-- The position of the cell to be overwritten next. -/
  index : Nat
  /-- Whether the sequence has already gone back to its start. -/
  repeated : Bool
deriving DecidableEq, Repr

namespace RandomSequence

/-- The number of cells. -/
def size : Nat := 344

/-- The number of cells that are seeded without feedback. -/
def seeds : Nat := 31

/-- How far ahead of the index, around the table, the first summand stands. -/
def firstTap : Nat := 313

/-- How far ahead of the index, around the table, the second summand stands. -/
def secondTap : Nat := 341

/-- The number of draws after which the sequence goes back to its start. -/
def restart : Nat := 22

/-- The next word of the multiplicative congruential generator. The remainder has the sign of its
argument, and a negative one is taken modulo `2 ^ 32`. -/
def congruential (previous : Int) : UInt32 :=
  UInt32.ofInt ((16807 * previous).tmod 2147483647)

/-- A table with one more cell from the congruential generator. -/
def pushSeed (table : Array UInt32) : Array UInt32 :=
  table.push (congruential (table.back?.getD 0).toNat)

/-- A table with one more cell from the feedback: the sum of the cells thirty-one and three back,
where the three cells that follow the seeds have the first summand only. -/
def pushFeedback (table : Array UInt32) : Array UInt32 :=
  table.push
    (table.getD (table.size - 31) 0 + if table.size < 34 then 0 else table.getD (table.size - 3) 0)

/-- The table of a seed. The seed is folded to a signed word; the second cell comes from that word,
the cells after it come from the cell before. -/
def tableOfSeed (seed : Int) : Array UInt32 :=
  let seed := Word.fold seed
  let start := #[UInt32.ofInt seed, congruential seed]
  Nat.repeat pushFeedback (size - seeds) (Nat.repeat pushSeed (seeds - 2) start)

/-- The sequence of a seed, not yet gone back to its start. -/
def ofSeed (seed : Int) : RandomSequence := ⟨tableOfSeed seed, 0, false⟩

/-- Starts again from a seed. Whether the sequence has gone back to its start is kept. -/
def reseed (r : RandomSequence) (seed : Int) : RandomSequence :=
  { r with table := tableOfSeed seed, index := 0 }

/-- The cell that the next draw writes. -/
def nextCell (r : RandomSequence) : UInt32 :=
  r.table.getD ((r.index + firstTap) % size) 0 + r.table.getD ((r.index + secondTap) % size) 0

/-- The number that the next draw yields, below `2 ^ 31`. -/
def next (r : RandomSequence) : Nat := (r.nextCell >>> 1).toNat

/-- The state after the next draw. -/
def advance (r : RandomSequence) : RandomSequence :=
  let table := r.table.setIfInBounds r.index r.nextCell
  let index := (r.index + 1) % size
  if r.repeated = false ∧ index = restart then ⟨table, 0, true⟩ else ⟨table, index, r.repeated⟩

/-- The numbers that the next `count` draws yield, and the state after them. -/
def draw (r : RandomSequence) : Nat → List Nat × RandomSequence
  | 0 => ([], r)
  | count + 1 =>
    let (numbers, last) := r.advance.draw count
    (r.next :: numbers, last)

/-- A state is valid when the table has all its cells, the index is one of them, and the index has
not passed the place from which the sequence has still to go back. -/
def Valid (r : RandomSequence) : Prop :=
  r.table.size = size ∧ r.index < size ∧ (r.repeated = false → r.index < restart)

instance (r : RandomSequence) : Decidable r.Valid :=
  inferInstanceAs (Decidable
    (r.table.size = size ∧ r.index < size ∧ (r.repeated = false → r.index < restart)))

theorem size_pushSeed (table : Array UInt32) : (pushSeed table).size = table.size + 1 := by
  simp [pushSeed]

theorem size_pushFeedback (table : Array UInt32) : (pushFeedback table).size = table.size + 1 := by
  simp [pushFeedback]

theorem size_repeat {step : Array UInt32 → Array UInt32}
    (hstep : ∀ table, (step table).size = table.size + 1) (count : Nat) (table : Array UInt32) :
    (Nat.repeat step count table).size = table.size + count := by
  induction count with
  | zero => rfl
  | succ count ih => rw [Nat.repeat, hstep, ih]; rfl

theorem size_tableOfSeed (seed : Int) : (tableOfSeed seed).size = size := by
  simp [tableOfSeed, size_repeat size_pushFeedback, size_repeat size_pushSeed, size, seeds]

/-- A seed counts only modulo `2 ^ 32`. -/
theorem ofSeed_fold (seed : Int) : ofSeed (Word.fold seed) = ofSeed seed := by
  simp [ofSeed, tableOfSeed, Word.fold_of_fits (Word.fits_fold seed)]

theorem next_lt (r : RandomSequence) : r.next < 2147483648 := by
  have h := r.nextCell.toNat_lt
  simp only [next, UInt32.toNat_shiftRight]
  change r.nextCell.toNat >>> 1 < 2147483648
  rw [Nat.shiftRight_eq_div_pow]
  omega

theorem valid_ofSeed (seed : Int) : (ofSeed seed).Valid :=
  ⟨size_tableOfSeed seed, Nat.zero_lt_succ _, fun _ => Nat.zero_lt_succ _⟩

theorem valid_reseed (r : RandomSequence) (seed : Int) : (r.reseed seed).Valid :=
  ⟨size_tableOfSeed seed, Nat.zero_lt_succ _, fun _ => Nat.zero_lt_succ _⟩

theorem advance_of_restart {r : RandomSequence}
    (h : r.repeated = false ∧ (r.index + 1) % size = restart) :
    r.advance = ⟨r.table.setIfInBounds r.index r.nextCell, 0, true⟩ :=
  if_pos h

theorem advance_of_not_restart {r : RandomSequence}
    (h : ¬ (r.repeated = false ∧ (r.index + 1) % size = restart)) :
    r.advance =
      ⟨r.table.setIfInBounds r.index r.nextCell, (r.index + 1) % size, r.repeated⟩ :=
  if_neg h

theorem Valid.advance {r : RandomSequence} (h : r.Valid) : r.advance.Valid := by
  have hsize : (r.table.setIfInBounds r.index r.nextCell).size = size := by
    rw [Array.size_setIfInBounds, h.1]
  by_cases hrestart : r.repeated = false ∧ (r.index + 1) % size = restart
  · rw [advance_of_restart hrestart]
    exact ⟨hsize, Nat.zero_lt_succ _, fun _ => Nat.zero_lt_succ _⟩
  · rw [advance_of_not_restart hrestart]
    refine ⟨hsize, Nat.mod_lt _ (Nat.zero_lt_succ _), fun hfalse => ?_⟩
    have hne : ¬ (r.index + 1) % size = restart := fun heq => hrestart ⟨hfalse, heq⟩
    have hlt := h.2.2 hfalse
    simp only [size, restart] at hne hlt ⊢
    omega

/-- Once the sequence has gone back to its start it never does so again. -/
theorem repeated_advance {r : RandomSequence} (h : r.repeated) : r.advance.repeated := by
  simp [RandomSequence.advance, h]

@[simp] theorem repeated_reseed (r : RandomSequence) (seed : Int) :
    (r.reseed seed).repeated = r.repeated := by
  rw [reseed]

@[simp] theorem draw_zero (r : RandomSequence) : r.draw 0 = ([], r) := rfl

theorem draw_succ (r : RandomSequence) (count : Nat) :
    r.draw (count + 1) = (r.next :: (r.advance.draw count).1, (r.advance.draw count).2) := rfl

end RandomSequence

end RpnCalculator
