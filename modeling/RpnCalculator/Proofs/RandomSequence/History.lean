import Mathlib.Data.List.Infix
import RpnCalculator.Proofs.RandomSequence.Stream

/-!
# Draws after any history

A random sequence is asked for numbers and seeded anew, in any order. What it yields next depends on
its latest seeding, on the number of draws since then, and on whether it had gone back to its start
before: `next_since_seeding` says how.

`Tracks r seed n` ties a state to the place `n` in the unbounded sequence of a seed. It speaks of the
words from `313` on, and of those among the last `344` only. Between these bounds are all the words
that a draw reads, and they are still in the table when the index goes back to the start, although
the first cells have been overwritten by then.
-/

namespace RpnCalculator

/-- What can be asked of a random sequence. -/
inductive Call where
  | next
  | reseed (seed : Int)
deriving DecidableEq, Repr

namespace RandomSequence

/-- The state after a call. -/
def call (r : RandomSequence) : Call → RandomSequence
  | .next => r.advance
  | .reseed seed => r.reseed seed

/-- The state after some calls. -/
def after (r : RandomSequence) (calls : List Call) : RandomSequence := calls.foldl call r

/-- Among some calls there are draws enough in a row to reach the place from which the sequence goes
back to its start. -/
def Spends (calls : List Call) : Prop := List.replicate restart .next <:+: calls

instance (calls : List Call) : Decidable (Spends calls) :=
  inferInstanceAs (Decidable (_ <:+: _))

theorem after_append (r : RandomSequence) (calls later : List Call) :
    r.after (calls ++ later) = (r.after calls).after later :=
  List.foldl_append

theorem after_append_reseed (r : RandomSequence) (calls : List Call) (seed : Int)
    (later : List Call) :
    r.after (calls ++ .reseed seed :: later) = ((r.after calls).reseed seed).after later := by
  rw [after_append, after, List.foldl_cons, call, ← after]

theorem after_replicate_succ (r : RandomSequence) (k : Nat) :
    r.after (List.replicate (k + 1) .next) = (r.after (List.replicate k .next)).advance := by
  rw [List.replicate_succ', after_append]
  rfl

/-! A state and a place in the unbounded sequence. -/

/-- The next draw of `r` writes word number `n + 344` of the sequence of a seed. -/
structure Tracks (r : RandomSequence) (seed : Int) (n : Nat) : Prop where
  size_eq : r.table.size = 344
  index_eq : r.index = n % 344
  holds : Holds r.table seed (max 313 n) (n + 344)

theorem tracks_tableOfSeed (seed : Int) (repeated : Bool) :
    Tracks ⟨tableOfSeed seed, 0, repeated⟩ (Word.fold seed) 0 :=
  ⟨size_tableOfSeed seed, rfl, (holds_tableOfSeed seed).mono (Nat.zero_le _) (Nat.le_refl _)⟩

theorem tracks_ofSeed (seed : Int) : Tracks (ofSeed seed) (Word.fold seed) 0 :=
  tracks_tableOfSeed seed false

theorem tracks_reseed (r : RandomSequence) (seed : Int) :
    Tracks (r.reseed seed) (Word.fold seed) 0 :=
  tracks_tableOfSeed seed r.repeated

namespace Tracks

variable {r : RandomSequence} {seed : Int} {n : Nat}

theorem toNat_nextCell (h : Tracks r seed n) : r.nextCell.toNat = stream seed (n + 344) := by
  have hfirst := h.holds (n + 313) (by omega) (by omega)
  have hsecond := h.holds (n + 341) (by omega) (by omega)
  have hrecurrence := stream_feedback seed (n + 310)
  rw [h.size_eq] at hfirst hsecond
  rw [nextCell, h.index_eq, size, firstTap, secondTap, Nat.mod_add_mod, Nat.mod_add_mod,
    UInt32.toNat_add, hfirst, hsecond]
  exact hrecurrence.symm

theorem next_eq (h : Tracks r seed n) : r.next = output seed n := by
  rw [next, UInt32.toNat_shiftRight, h.toNat_nextCell, output, Nat.add_comm 344]
  exact Nat.shiftRight_eq_div_pow _ 1

theorem holds_written (h : Tracks r seed n) :
    Holds (r.table.setIfInBounds r.index r.nextCell) seed (max 313 (n + 1)) (n + 345) := by
  have hsize := h.size_eq
  have hindex : r.index = (n + 344) % r.table.size := by
    rw [hsize, h.index_eq, Nat.add_mod_right]
  rw [hindex]
  exact h.holds.write h.toNat_nextCell (by omega) (by omega) (by omega)

theorem advance (h : Tracks r seed n) (hstay : r.repeated = true ∨ n + 1 < restart) :
    Tracks r.advance seed (n + 1) ∧ r.advance.repeated = r.repeated := by
  have hindex : (r.index + 1) % size = (n + 1) % 344 := by
    rw [h.index_eq, size, Nat.mod_add_mod]
  have hnot : ¬ (r.repeated = false ∧ (r.index + 1) % size = restart) := by
    rw [hindex]
    rintro ⟨hfalse, hrestart⟩
    simp only [hfalse, restart, Bool.false_eq_true, false_or] at hstay hrestart
    omega
  rw [advance_of_not_restart hnot]
  refine ⟨⟨?_, hindex, h.holds_written⟩, rfl⟩
  rw [Array.size_setIfInBounds, h.size_eq]

/-- At the restart the words that the next draw reads are still those of the seeding. -/
theorem advance_restart (h : Tracks r seed 21) (hfalse : r.repeated = false) :
    Tracks r.advance seed 0 ∧ r.advance.repeated = true := by
  have hindex : (r.index + 1) % size = restart := by
    rw [h.index_eq]
    rfl
  rw [advance_of_restart ⟨hfalse, hindex⟩]
  refine ⟨⟨?_, rfl, h.holds_written.mono (by omega) (by omega)⟩, rfl⟩
  rw [Array.size_setIfInBounds, h.size_eq]

/-- Draws in a row that do not come to the restart. -/
theorem after_replicate (h : Tracks r seed n) {k : Nat}
    (hstay : r.repeated = true ∨ n + k < restart) :
    Tracks (r.after (List.replicate k .next)) seed (n + k) ∧
      (r.after (List.replicate k .next)).repeated = r.repeated := by
  induction k with
  | zero => exact ⟨h, rfl⟩
  | succ k ih =>
      obtain ⟨htracks, hrepeated⟩ := ih (hstay.imp_right (by omega))
      rw [after_replicate_succ, ← hrepeated]
      exact htracks.advance (hrepeated ▸ hstay)

/-- Draws in a row from a seeding on that come to the restart. -/
theorem after_replicate_restart (h : Tracks r seed 0) (hfalse : r.repeated = false) (k : Nat) :
    Tracks (r.after (List.replicate (restart + k) .next)) seed k ∧
      (r.after (List.replicate (restart + k) .next)).repeated = true := by
  obtain ⟨hbefore, hnot⟩ := h.after_replicate (k := 21) (.inr (by decide))
  obtain ⟨hstart, htrue⟩ := hbefore.advance_restart (hnot.trans hfalse)
  rw [← after_replicate_succ] at hstart htrue
  obtain ⟨hlater, hrepeated⟩ := hstart.after_replicate (k := k) (.inl htrue)
  rw [Nat.zero_add] at hlater
  rw [← List.replicate_append_replicate, after_append]
  exact ⟨hlater, hrepeated.trans htrue⟩

end Tracks

/-! Draws since a seeding. -/

variable {r : RandomSequence} {seed : Int}

theorem repeated_after_replicate (h : Tracks r seed 0) (k : Nat) :
    (r.after (List.replicate k .next)).repeated = true ↔ r.repeated = true ∨ restart ≤ k := by
  by_cases hstay : r.repeated = true ∨ k < restart
  · rw [(h.after_replicate (hstay.imp_right fun hk => by rwa [Nat.zero_add])).2]
    refine ⟨.inl, ?_⟩
    rintro (htrue | hk)
    · exact htrue
    · exact hstay.resolve_right (Nat.not_lt.2 hk)
  · obtain ⟨hfalse, hk⟩ := not_or.1 hstay
    obtain ⟨j, rfl⟩ : ∃ j, k = restart + j := ⟨k - restart, by omega⟩
    have htrue := (h.after_replicate_restart (Bool.not_eq_true _ ▸ hfalse) j).2
    exact ⟨fun _ => .inr (by omega), fun _ => htrue⟩

theorem next_after_replicate (h : Tracks r seed 0) (k : Nat) :
    (r.after (List.replicate k .next)).next =
      if r.repeated = true ∨ k < restart then output seed k else output seed (k - restart) := by
  by_cases hstay : r.repeated = true ∨ k < restart
  · have htracks := (h.after_replicate (hstay.imp_right fun hk => by rwa [Nat.zero_add])).1
    rw [if_pos hstay, htracks.next_eq, Nat.zero_add]
  · obtain ⟨hfalse, hk⟩ := not_or.1 hstay
    obtain ⟨j, rfl⟩ : ∃ j, k = restart + j := ⟨k - restart, by omega⟩
    have htracks := (h.after_replicate_restart (Bool.not_eq_true _ ▸ hfalse) j).1
    rw [if_neg hstay, htracks.next_eq, Nat.add_sub_cancel_left]

/-! The latest seeding of a history. -/

/-- Among some calls there is a latest seeding, or there are draws only. -/
theorem eq_replicate_or_exists_seeding (calls : List Call) :
    (∃ k, calls = List.replicate k .next) ∨
      ∃ before seed k, calls = before ++ .reseed seed :: List.replicate k .next := by
  induction calls with
  | nil => exact .inl ⟨0, rfl⟩
  | cons c calls ih =>
      rcases ih with ⟨k, rfl⟩ | ⟨before, seed, k, rfl⟩
      · cases c with
        | next => exact .inl ⟨k + 1, rfl⟩
        | reseed seed => exact .inr ⟨[], seed, k, rfl⟩
      · exact .inr ⟨c :: before, seed, k, rfl⟩

theorem spends_replicate (k : Nat) : Spends (List.replicate k .next) ↔ restart ≤ k := by
  rw [Spends, List.infix_replicate_iff, List.length_replicate]
  exact and_iff_left rfl

/-- Draws in a row have no seeding among them. -/
theorem spends_append_reseed (before calls : List Call) (seed : Int) :
    Spends (before ++ .reseed seed :: calls) ↔ Spends before ∨ Spends calls := by
  have hnil {last : List Call} (hlast : last <+: .reseed seed :: calls)
      (hdraws : last ⊆ List.replicate restart .next) : last = [] := by
    rcases List.prefix_cons_iff.1 hlast with h | ⟨rest, rfl, -⟩
    · exact h
    · have heq := List.eq_of_mem_replicate (hdraws List.mem_cons_self)
      cases heq
  constructor
  · intro h
    rcases List.infix_append_iff.1 h with h | h | ⟨first, last, heq, hfirst, hlast⟩
    · exact .inl h
    · rcases List.infix_cons_iff.1 h with h | h
      · exact absurd (hnil h (List.Subset.refl _)) (by decide)
      · exact .inr h
    · have hempty := hnil hlast (heq ▸ List.subset_append_right first last)
      rw [hempty, List.append_nil] at heq
      rw [← heq] at hfirst
      exact .inl hfirst.isInfix
  · rintro (h | h)
    · exact h.trans (List.prefix_append _ _).isInfix
    · exact h.trans ((List.suffix_cons _ _).trans (List.suffix_append _ _)).isInfix

/-- The sequence has gone back to its start when there were draws enough in a row at some time. -/
theorem repeated_after (first : Int) (calls : List Call) :
    ((ofSeed first).after calls).repeated = true ↔ Spends calls := by
  -- What comes before the latest seeding is a shorter history.
  induction hlength : calls.length using Nat.strong_induction_on generalizing calls with
  | _ length ih =>
  rcases eq_replicate_or_exists_seeding calls with ⟨k, rfl⟩ | ⟨before, seed, k, rfl⟩
  · rw [repeated_after_replicate (tracks_ofSeed first), spends_replicate]
    exact or_iff_right (by simp [ofSeed])
  · have hbefore := ih before.length (by simp [← hlength]) before rfl
    rw [after_append_reseed, repeated_after_replicate (tracks_reseed _ seed), repeated_reseed,
      hbefore, spends_append_reseed, spends_replicate]

/-- In any history of draws and seedings there is a latest seeding, with `k` draws since, and `before`
is the history up to it. The next draw yields number `k` of that seed's sequence, where the first `22`
numbers come twice unless the sequence had gone back to its start in `before`. It goes back in the
history just when there are `22` draws in a row. -/
theorem next_since_seeding (first : Int) (calls : List Call) :
    (∃ before seed k, .reseed first :: calls = before ++ .reseed seed :: List.replicate k .next ∧
      ((ofSeed first).after calls).next =
        if Spends before ∨ k < 22 then output (Word.fold seed) k
        else output (Word.fold seed) (k - 22)) ∧
      (((ofSeed first).after calls).repeated = true ↔ Spends calls) := by
  refine ⟨?_, repeated_after first calls⟩
  rcases eq_replicate_or_exists_seeding calls with ⟨k, rfl⟩ | ⟨before, seed, k, rfl⟩
  · refine ⟨[], first, k, rfl, ?_⟩
    have hfresh : ¬ Spends [] := by decide
    rw [next_after_replicate (tracks_ofSeed first)]
    simp [hfresh, ofSeed, restart]
  · refine ⟨.reseed first :: before, seed, k, rfl, ?_⟩
    have hspends : Spends (.reseed first :: before) ↔ Spends before :=
      (spends_append_reseed [] before first).trans (or_iff_right (by decide))
    rw [after_append_reseed, next_after_replicate (tracks_reseed _ seed), repeated_reseed]
    simp only [repeated_after, hspends, restart]

end RandomSequence

end RpnCalculator
