import RpnCalculator.Machine.Line
import RpnCalculator.Proofs.Machine.Step

/-!
# One loop over a list

`Machine.loop` feeds the members of a list to a machine one after another, with no recursion but that
along the list. A complaint is printed and ends its own member only, any other failure ends the loop.
The step is a parameter, so one loop runs the lexemes of a line and the instructions that a line is
flattened to. Running lexemes is such a loop (`runWith_eq_loop`), and a loop keeps whatever its steps
keep (`loop_induction`).
-/

namespace RpnCalculator

namespace Run

variable {r : Run}

theorem printing_andThen (m : Machine) (events : List Event) (next : Machine → Run) :
    (printing m events).andThen next =
      ⟨(next m).machine, events ++ (next m).events, (next m).failure⟩ := rfl

theorem andThen_congr {next other : Machine → Run} (h : next r.machine = other r.machine) :
    r.andThen next = r.andThen other := by
  unfold andThen
  rw [h]

theorem contain_eq_self (h : ∀ cause, r.failure ≠ some (.complaint cause)) : r.contain = r := by
  rw [contain]
  split
  · rename_i cause heq
    exact absurd heq (h cause)
  · rfl

theorem failure_of_failure_contain {failure : Failure} (h : r.contain.failure = some failure) :
    r.failure = some failure := by
  unfold contain at h
  split at h
  · cases h
  · exact h

theorem contain_printing (m : Machine) (events : List Event) :
    (printing m events).contain = printing m events := rfl

theorem contain_printing_andThen (m : Machine) (events : List Event) (next : Machine → Run) :
    ((printing m events).andThen next).contain =
      (printing m events).andThen fun later => (next later).contain := by
  rw [printing_andThen, printing_andThen]
  cases next m with
  | mk machine later failure =>
      unfold contain
      simp only
      split <;> simp

end Run

namespace Machine

/-- Feeds the members of a list to a machine in order, after `printed` has been printed. -/
def loop {α : Type} (step : Machine → α → Run) (m : Machine) (printed : List Event) :
    List α → Run
  | [] => ⟨m, printed, none⟩
  | x :: xs =>
    let r := (step m x).contain
    match r.failure with
    | none => loop step r.machine (printed ++ r.events) xs
    | some failure => ⟨r.machine, printed ++ r.events, some failure⟩

variable {α β : Type} {step : Machine → α → Run}

@[simp] theorem loop_nil (m : Machine) (printed : List Event) :
    loop step m printed [] = .printing m printed := rfl

/-- What is printed before a loop stands before what the loop prints. -/
theorem loop_eq_printing_andThen (m : Machine) (printed : List Event) (xs : List α) :
    loop step m printed xs =
      (Run.printing m printed).andThen fun next => loop step next [] xs := by
  induction xs generalizing m printed with
  | nil => simp [Run.printing, Run.andThen]
  | cons x xs ih =>
      rw [Run.printing_andThen, loop, loop]
      cases (step m x).contain.failure with
      | none =>
          simp only [List.nil_append]
          rw [ih, ih _ (step m x).contain.events]
          simp [Run.printing_andThen]
      | some failure => simp

theorem loop_cons (m : Machine) (x : α) (xs : List α) :
    loop step m [] (x :: xs) =
      (step m x).contain.andThen fun next => loop step next [] xs := by
  rw [loop]
  cases (step m x).contain with
  | mk machine events failure =>
      cases failure with
      | none => exact loop_eq_printing_andThen machine events xs
      | some failure => rfl

theorem loop_singleton (m : Machine) (x : α) : loop step m [] [x] = (step m x).contain := by
  rw [loop_cons]
  exact Run.andThen_idle _

theorem loop_append (m : Machine) (xs ys : List α) :
    loop step m [] (xs ++ ys) =
      (loop step m [] xs).andThen fun next => loop step next [] ys := by
  induction xs generalizing m with
  | nil => exact (Run.idle_andThen m fun next => loop step next [] ys).symm
  | cons x xs ih =>
      rw [List.cons_append, loop_cons, loop_cons, Run.andThen_assoc]
      congr 1
      funext next
      exact ih next

theorem loop_map (f : β → α) (m : Machine) (xs : List β) :
    loop step m [] (xs.map f) = loop (fun next x => step next (f x)) m [] xs := by
  induction xs generalizing m with
  | nil => rfl
  | cons x xs ih =>
      rw [List.map_cons, loop_cons, loop_cons]
      congr 1
      funext next
      exact ih next

/-- Two steps that agree on the members of a list make the same loop over it. -/
theorem loop_congr {other : Machine → α → Run} {xs : List α}
    (h : ∀ x ∈ xs, ∀ m, step m x = other m x) (m : Machine) :
    loop step m [] xs = loop other m [] xs := by
  induction xs generalizing m with
  | nil => rfl
  | cons x xs ih =>
      rw [loop_cons, loop_cons, h x List.mem_cons_self m]
      congr 1
      funext next
      exact ih (fun y hy => h y (List.mem_cons_of_mem _ hy)) next

/-- What every step keeps, a loop keeps, however it ends. -/
theorem loop_induction {P : Machine → Prop} {xs : List α}
    (hstep : ∀ x ∈ xs, ∀ m, P m → P (step m x).machine) {m : Machine} (hm : P m) :
    P (loop step m [] xs).machine := by
  induction xs generalizing m with
  | nil => exact hm
  | cons x xs ih =>
      have hnext : P (step m x).contain.machine := by
        rw [Run.machine_contain]
        exact hstep x List.mem_cons_self m hm
      rw [loop_cons]
      cases hfailure : (step m x).contain.failure with
      | some failure => rwa [Run.andThen_of_failure hfailure]
      | none =>
          rw [Run.andThen_of_not_failure hfailure]
          exact ih (fun y hy => hstep y (List.mem_cons_of_mem _ hy)) hnext

/-- No complaint gets out of a loop. -/
theorem failure_loop_ne_complaint (m : Machine) (xs : List α) (cause : Complaint) :
    (loop step m [] xs).failure ≠ some (.complaint cause) := by
  induction xs generalizing m with
  | nil => simp [Run.printing]
  | cons x xs ih =>
      rw [loop_cons]
      cases hfailure : (step m x).contain.failure with
      | some failure =>
          rw [Run.andThen_of_failure hfailure]
          exact Run.failure_contain_ne_complaint _ cause
      | none =>
          rw [Run.andThen_of_not_failure hfailure]
          exact ih _

theorem contain_loop (m : Machine) (xs : List α) :
    (loop step m [] xs).contain = loop step m [] xs :=
  Run.contain_eq_self (failure_loop_ne_complaint m xs)

/-! Where a loop meets a failure. -/

/-- A loop that fails has failed at one member, and at none before it. -/
theorem exists_of_failure_loop {m : Machine} {xs : List α} {failure : Failure}
    (h : (loop step m [] xs).failure = some failure) :
    ∃ before x after, xs = before ++ x :: after ∧ (loop step m [] before).failure = none ∧
      (step (loop step m [] before).machine x).failure = some failure := by
  induction xs generalizing m with
  | nil => cases h
  | cons x xs ih =>
      rw [loop_cons] at h
      cases hfirst : (step m x).contain.failure with
      | some first =>
          rw [Run.andThen_of_failure hfirst] at h
          exact ⟨[], x, xs, rfl, rfl, Run.failure_of_failure_contain h⟩
      | none =>
          rw [Run.andThen_of_not_failure hfirst] at h
          obtain ⟨before, y, after, rfl, hbefore, hy⟩ := ih h
          have hcons : loop step m [] (x :: before) =
              ⟨(loop step (step m x).contain.machine [] before).machine,
                (step m x).contain.events ++
                  (loop step (step m x).contain.machine [] before).events,
                (loop step (step m x).contain.machine [] before).failure⟩ := by
            rw [loop_cons, Run.andThen_of_not_failure hfirst]
          refine ⟨x :: before, y, after, rfl, ?_, ?_⟩
          · rw [hcons]
            exact hbefore
          · rw [hcons]
            exact hy

variable {m : Machine} {before : List α} {x : α}

/-- The members before one that the loop has got to have run, and the rest is up to it and those
after it. -/
theorem loop_append_cons (hbefore : (loop step m [] before).failure = none) (after : List α) :
    loop step m [] (before ++ x :: after) =
      (Run.printing (loop step m [] before).machine (loop step m [] before).events).andThen
        fun next => (step next x).contain.andThen fun last => loop step last [] after := by
  rw [loop_append, Run.andThen_of_not_failure hbefore, Run.printing_andThen]
  simp only [loop_cons]

/-- A failure that is no complaint ends a loop with what has been printed up to then. -/
theorem loop_of_fatal {failure : Failure} (hbefore : (loop step m [] before).failure = none)
    (hx : (step (loop step m [] before).machine x).failure = some failure)
    (hfatal : ∀ cause, failure ≠ .complaint cause) (after : List α) :
    loop step m [] (before ++ x :: after) =
      ⟨(step (loop step m [] before).machine x).machine,
        (loop step m [] before).events ++ (step (loop step m [] before).machine x).events,
        some failure⟩ := by
  have hcontain : (step (loop step m [] before).machine x).contain =
      step (loop step m [] before).machine x := by
    refine Run.contain_eq_self fun cause heq => ?_
    rw [hx] at heq
    exact hfatal cause (Option.some.inj heq)
  rw [loop_append_cons hbefore, Run.printing_andThen, hcontain, Run.andThen_of_failure hx, hx]

/-- After a complaint a loop prints it and goes on with the next member. -/
theorem loop_of_complaint {cause : Complaint} (hbefore : (loop step m [] before).failure = none)
    (hx : (step (loop step m [] before).machine x).failure = some (.complaint cause))
    (after : List α) :
    loop step m [] (before ++ x :: after) =
      loop step (step (loop step m [] before).machine x).machine
        ((loop step m [] before).events ++ (step (loop step m [] before).machine x).events ++
          [.complaint cause]) after := by
  refine Eq.trans ?_ (loop_eq_printing_andThen _ _ after).symm
  rw [loop_append_cons hbefore, Run.printing_andThen, Run.contain_of_complaint hx]
  simp [Run.andThen, Run.printing]

/-- A member that does nothing but change the machine leaves what is printed as it is. -/
theorem loop_of_idle {first next : Machine} {events : List Event}
    (hbefore : loop step first [] before = .printing m events) (hx : step m x = .idle next)
    (after : List α) : loop step first [] (before ++ x :: after) = loop step next events after := by
  have hfailure : (loop step first [] before).failure = none := by
    rw [hbefore]
    rfl
  rw [loop_append_cons hfailure, hbefore, loop_eq_printing_andThen next, Run.printing_andThen,
    Run.printing_andThen]
  simp only [Run.printing, hx, Run.contain_idle, Run.idle_andThen]

/-- A member that fails without a word ends a loop with what has been printed up to then. -/
theorem loop_of_failing {first next : Machine} {events : List Event} {failure : Failure}
    (hbefore : loop step first [] before = .printing m events) (hx : step m x = .failing next failure)
    (hfatal : ∀ cause, failure ≠ .complaint cause) (after : List α) :
    loop step first [] (before ++ x :: after) = ⟨next, events, some failure⟩ := by
  have hmachine : (loop step first [] before).machine = m := by
    rw [hbefore]
    rfl
  have hfailing : (step (loop step first [] before).machine x).failure = some failure := by
    rw [hmachine, hx]
    rfl
  rw [loop_of_fatal (by rw [hbefore]; rfl) hfailing hfatal, hmachine, hx, hbefore]
  simp [Run.printing, Run.failing]

/-- Running lexemes is a loop over them. -/
theorem runWith_eq_loop {evaluate : Machine → Text → Run} (m : Machine) (xs : List Lexeme) :
    runWith evaluate m xs = loop (feedWith evaluate) m [] xs := by
  induction xs generalizing m with
  | nil => rfl
  | cons x xs ih =>
      rw [runWith_cons, loop_cons]
      congr 1
      funext next
      exact ih next

end Machine

end RpnCalculator
