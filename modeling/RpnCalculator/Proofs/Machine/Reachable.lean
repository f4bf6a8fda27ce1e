import RpnCalculator.Proofs.Machine.Act
import RpnCalculator.Proofs.Machine.Loop

/-!
# Reachable machines

An `Operation` is what can be asked of a machine from outside: to run a line, to act upon a lexeme of
any kind and text, to take a number or give one up, to start its random sequence again. `Reachable`
holds of the machines that any operations in any order lead to, whether they failed or not; a failed
operation leaves whatever machine it has got to.

All that a machine does is put together from five changes of its state, the fields of `Invariant`. What
none of them destroys no operation destroys, however it ends (`Invariant.perform`). So all reachable
machines are valid (`Reachable.valid`), and a random sequence that has gone back to its start is never
again one that has not (`invariant_repeated`).
-/

namespace RpnCalculator

/-- What can be asked of a machine. -/
inductive Operation where
  | process (line : Text) (comments : Bool)
  /-- To act upon a lexeme that may have been read in several ways, or in none. -/
  | feed (readings : List Lexeme)
  | push (v : Number)
  | pop
  | reseed (seed : Int)

namespace Machine

/-- Performs an operation. -/
def perform (m : Machine) : Operation → Run
  | .process line comments => m.process line comments
  | .feed readings =>
    match Lexeme.foremost? readings with
    | some x => m.feed x
    | none => .idle m
  | .push v => m.push v
  | .pop => .idle m.pop
  | .reseed seed => .idle (m.reseed seed)

/-- A machine is reachable when a sequence of operations leads to it from a fresh machine. -/
inductive Reachable : Machine → Prop
  | ofSeed (seed : Int) (verbose : Bool) : Reachable (ofSeed seed verbose)
  | perform {m : Machine} (h : Reachable m) (operation : Operation) :
      Reachable (m.perform operation).machine

/-- The machine after some operations, those that failed included. -/
def after (m : Machine) (operations : List Operation) : Machine :=
  operations.foldl (fun next operation => (next.perform operation).machine) m

/-- A property of machines that none of the changes of state destroys of which an operation is put
together. -/
structure Invariant (P : Machine → Prop) : Prop where
  push {m : Machine} (v : Number) (h : P m) : P (m.push v).machine
  pop {m : Machine} (h : P m) : P m.pop
  reseed {m : Machine} (seed : Int) (h : P m) : P (m.reseed seed)
  advance {m : Machine} (h : P m) : P { m with random := m.random.advance }
  toggleComment {m : Machine} (h : P m) : P m.toggleComment

namespace Invariant

variable {P : Machine → Prop} (hP : Invariant P) {m : Machine}

include hP

theorem putBack (h : P m) (left right : Int) : P (m.putBack left right).machine :=
  hP.push (.integer right) (hP.push (.integer left) h)

theorem pushLiteral (h : P m) (base : Nat) (text : Text) : P (m.pushLiteral base text).machine := by
  rw [Machine.pushLiteral]
  split
  · exact hP.push _ h
  · exact h

theorem applyOperator (h : P m) (text : Text) : P (m.applyOperator text).machine := by
  have hrest : P m.pop.pop := hP.pop (hP.pop h)
  rw [Machine.applyOperator]
  split
  · exact h
  · simp only
    split
    · exact hrest
    · split
      · exact hP.push _ hrest
      · exact hP.putBack hrest _ _
      · exact hrest

theorem pushRandom (h : P m) : P m.pushRandom.machine := by
  have hdrawn := hP.advance h
  rw [Machine.pushRandom]
  split
  · exact h
  · exact hP.push _ hdrawn

theorem obey (h : P m) (text : Text) : P (m.obey text).machine := by
  unfold Machine.obey
  split
  · exact h
  · exact hP.pushRandom h
  · exact h
  · exact h

theorem feedWith {evaluate : Machine → Text → Run}
    (hevaluate : ∀ next text, P next → P (evaluate next text).machine) (h : P m) (x : Lexeme) :
    P (Machine.feedWith evaluate m x).machine := by
  rw [Machine.feedWith]
  split
  · exact hP.toggleComment h
  · split
    · exact h
    · split
      · exact hP.pushLiteral h 8 x.text
      · exact hP.pushLiteral h 10 x.text
      · exact hP.applyOperator h x.text
      · exact hP.obey h x.text
      · exact hevaluate m x.text h
      · exact h
      · exact h

theorem act (h : P m) (x : Lexeme) : P (m.act x).machine :=
  hP.feedWith (fun _ _ hnext => hnext) h x

theorem runWith {evaluate : Machine → Text → Run}
    (hevaluate : ∀ next text, P next → P (evaluate next text).machine) (h : P m)
    (xs : List Lexeme) : P (Machine.runWith evaluate m xs).machine := by
  rw [runWith_eq_loop]
  exact loop_induction (P := P) (fun x _ _ hnext => hP.feedWith hevaluate hnext x) h

theorem evaluate (depth : Nat) {m : Machine} (h : P m) (expression : Text) :
    P (Machine.evaluate depth m expression).machine := by
  induction depth generalizing m expression with
  | zero => exact h
  | succ depth ih => exact hP.runWith (fun next text hnext => ih hnext text) h _

theorem feed (h : P m) (x : Lexeme) : P (m.feed x).machine :=
  hP.feedWith (fun _ text hnext => hP.evaluate nestingLimit hnext text) h x

theorem process (h : P m) (line : Text) (comments : Bool) : P (m.process line comments).machine :=
  hP.runWith (fun _ text hnext => hP.evaluate nestingLimit hnext text) h _

theorem perform (h : P m) (operation : Operation) : P (m.perform operation).machine := by
  cases operation with
  | process line comments => exact hP.process h line comments
  | feed readings =>
      unfold Machine.perform
      simp only
      split
      · exact hP.feed h _
      · exact h
  | push v => exact hP.push v h
  | pop => exact hP.pop h
  | reseed seed => exact hP.reseed seed h

theorem after (h : P m) (operations : List Operation) : P (m.after operations) := by
  induction operations generalizing m with
  | nil => exact h
  | cons operation operations ih => exact ih (hP.perform h operation)

end Invariant

/-! Two invariants. -/

theorem invariant_valid : Invariant Valid where
  push v h := ⟨h.1.push v, h.2⟩
  pop h := ⟨h.1.pop, h.2⟩
  reseed {m} seed h := by
    have hrandom := m.random.valid_reseed seed
    rw [Machine.reseed]
    exact ⟨h.1, hrandom⟩
  advance h := ⟨h.1, h.2.advance⟩
  toggleComment h := h

/-- Nothing makes a random sequence forget that it has gone back to its start. -/
theorem invariant_repeated : Invariant fun m => m.random.repeated = true where
  push _ h := h
  pop h := h
  reseed {m} seed h := by
    rw [Machine.reseed, RandomSequence.repeated_reseed]
    exact h
  advance h := RandomSequence.repeated_advance h
  toggleComment h := h

theorem Valid.act {m : Machine} (h : m.Valid) (x : Lexeme) : (m.act x).machine.Valid :=
  invariant_valid.act h x

theorem Reachable.valid {m : Machine} (h : m.Reachable) : m.Valid := by
  induction h with
  | ofSeed seed verbose => exact valid_ofSeed seed verbose
  | perform _ operation ih => exact invariant_valid.perform ih operation

theorem Reachable.after {m : Machine} (h : m.Reachable) (operations : List Operation) :
    (m.after operations).Reachable := by
  induction operations generalizing m with
  | nil => exact h
  | cons operation operations ih => exact ih (h.perform operation)

end Machine

end RpnCalculator
