import RpnCalculator.Proofs.Machine.Reachable
import RpnCalculator.Proofs.Machine.Step

/-!
# What every machine looks like

Whatever is asked of a machine, and however that ends, its stack has room for its words and its random
sequence has a full table and an index that has not passed the place of the restart before its time.
The operands that a failed operator leaves off the stack, or puts back, make no difference to this.
-/

namespace RpnCalculator

namespace Machine

/-- A number that is drawn is pushed as it is, if there is room for it. -/
theorem values_pushRandom (m : Machine) :
    m.pushRandom.machine.stack.values =
      if m.stack.isFull then m.stack.values else (m.random.next : Int) :: m.stack.values := by
  split
  · rename_i hfull
    rw [pushRandom_of_isFull hfull]
    rfl
  · rename_i hfull
    rw [pushRandom_of_not_isFull hfull]
    rfl

/-- The shape of a reachable machine: its words and its table, the bound on the index before the
restart, a restart that is never forgotten, and draws that fit a word. The draws are those of any
machine `n`, since a machine draws in the middle of an operation. -/
theorem representation_of_reachable {m : Machine} (h : m.Reachable) :
    (m.stack.size ≤ 23 ∧
      ∀ value ∈ m.stack.values, -2147483648 ≤ value ∧ value ≤ 2147483647) ∧
      (m.random.table.size = 344 ∧ ∀ cell ∈ m.random.table, cell.toNat < 4294967296) ∧
        (m.random.index < 344 ∧ (m.random.repeated = false → m.random.index < 22)) ∧
          (∀ operations, m.random.repeated = true → (m.after operations).random.repeated = true) ∧
            ∀ n : Machine, n.random.next < 2147483648 ∧
              n.pushRandom.machine.stack.values =
                if n.stack.isFull then n.stack.values
                else (n.random.next : Int) :: n.stack.values := by
  obtain ⟨hstack, hsize, hindex, hrestart⟩ := h.valid
  refine ⟨hstack, ⟨hsize, fun cell _ => cell.toNat_lt⟩, ⟨hindex, hrestart⟩, ?_, ?_⟩
  · intro operations hrepeated
    exact invariant_repeated.after hrepeated operations
  · intro n
    exact ⟨n.random.next_lt, n.values_pushRandom⟩

/-- A machine that has failed in four ways: the operator that does not exist and the remainder of a
division by zero have taken their operands with them. -/
def worn : Machine :=
  (ofSeed 7 false).after
    [.push (.real .nan), .push (.real (.infinite true)), .feed [⟨.operator, "**".toList⟩],
      .process "5 0 % 9".toList true, .feed [⟨.octal, ['9']⟩], .feed [⟨.character, "zz".toList⟩],
      .process "r r 3+4".toList true]

theorem representation_of_worn :
    worn.Reachable ∧ worn.stack.size = 3 ∧ worn.random.index = 2 ∧
      (∀ value ∈ worn.stack.values, -2147483648 ≤ value ∧ value ≤ 2147483647) ∧
        (worn.random.repeated = false → worn.random.index < 22) := by
  have hreachable : worn.Reachable := (Reachable.ofSeed 7 false).after _
  obtain ⟨⟨-, hwords⟩, -, ⟨-, hindex⟩, -⟩ := representation_of_reachable hreachable
  exact ⟨hreachable, by decide +kernel, by decide +kernel, hwords, hindex⟩

end Machine

end RpnCalculator
