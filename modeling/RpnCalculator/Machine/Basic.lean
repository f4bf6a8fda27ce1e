import RpnCalculator.RandomSequence
import RpnCalculator.Stack

/-!
# The machine and its runs

A `Machine` is all that lasts from one line to the next. A `Run` is what becomes of a machine while
it acts: the machine afterwards, the events in their order, and the failure that has ended the run
early, if any. Runs are put one after another by `Run.andThen`, where a failed run is not continued,
and `Run.contain` turns a complaint, which is a failure of one lexeme, into an event of the line.
-/

namespace RpnCalculator

/-- The state of the calculator. -/
structure Machine where
  stack : Stack
  random : RandomSequence
  /-- Whether lexemes are ignored up to the next comment mark. -/
  comment : Bool
  /-- Whether conversions of expressions are printed. -/
  verbose : Bool
deriving DecidableEq, Repr

namespace Machine

/-- The seed of a machine for which none is given. -/
def defaultSeed : Int := 1

/-- A machine with an empty stack. -/
def ofSeed (seed : Int) (verbose : Bool) : Machine :=
  ⟨.empty, .ofSeed seed, false, verbose⟩

/-- A machine is valid when its stack and its random sequence are. -/
def Valid (m : Machine) : Prop := m.stack.Valid ∧ m.random.Valid

theorem valid_ofSeed (seed : Int) (verbose : Bool) : (ofSeed seed verbose).Valid :=
  ⟨Stack.valid_empty, RandomSequence.valid_ofSeed seed⟩

end Machine

/-- What becomes of a machine while it acts: the machine afterwards, what was printed, in order, and
what has ended the run early. -/
structure Run where
  machine : Machine
  events : List Event
  failure : Option Failure
deriving DecidableEq, Repr

namespace Run

/-- A run in which nothing happens. -/
def idle (m : Machine) : Run := ⟨m, [], none⟩

/-- A run that prints some events and does not fail. -/
def printing (m : Machine) (events : List Event) : Run := ⟨m, events, none⟩

/-- A run that fails and prints nothing. -/
def failing (m : Machine) (failure : Failure) : Run := ⟨m, [], some failure⟩

/-- Continues a run that has not failed. -/
def andThen (r : Run) (next : Machine → Run) : Run :=
  match r.failure with
  | some _ => r
  | none =>
    let later := next r.machine
    ⟨later.machine, r.events ++ later.events, later.failure⟩

/-- A run with a complaint as its last event instead of its failure. -/
def contain (r : Run) : Run :=
  match r.failure with
  | some (.complaint cause) => ⟨r.machine, r.events ++ [.complaint cause], none⟩
  | _ => r

/-- What a run prints on standard output. -/
def out (r : Run) : Text := Event.outOf r.events

/-- What a run prints on standard error. -/
def err (r : Run) : Text := Event.errOf r.events

@[simp] theorem machine_idle (m : Machine) : (idle m).machine = m := rfl

@[simp] theorem events_idle (m : Machine) : (idle m).events = [] := rfl

@[simp] theorem failure_idle (m : Machine) : (idle m).failure = none := rfl

@[simp] theorem idle_andThen (m : Machine) (next : Machine → Run) :
    (idle m).andThen next = next m := by
  simp [andThen, idle]

@[simp] theorem andThen_idle (r : Run) : r.andThen idle = r := by
  cases r with
  | mk machine events failure => cases failure <;> simp [andThen, idle]

theorem andThen_of_failure {r : Run} {failure : Failure} (h : r.failure = some failure)
    (next : Machine → Run) : r.andThen next = r := by
  simp [andThen, h]

theorem andThen_of_not_failure {r : Run} (h : r.failure = none) (next : Machine → Run) :
    r.andThen next =
      ⟨(next r.machine).machine, r.events ++ (next r.machine).events,
        (next r.machine).failure⟩ := by
  simp [andThen, h]

theorem andThen_assoc (r : Run) (next last : Machine → Run) :
    (r.andThen next).andThen last = r.andThen fun m => (next m).andThen last := by
  cases hr : r.failure with
  | some failure => simp [andThen, hr]
  | none =>
      cases hn : (next r.machine).failure with
      | some failure => simp [andThen, hr, hn]
      | none => simp [andThen, hr, hn]

@[simp] theorem contain_idle (m : Machine) : (idle m).contain = idle m := rfl

theorem contain_of_complaint {r : Run} {cause : Complaint}
    (h : r.failure = some (.complaint cause)) :
    r.contain = ⟨r.machine, r.events ++ [.complaint cause], none⟩ := by
  simp [contain, h]

@[simp] theorem machine_contain (r : Run) : r.contain.machine = r.machine := by
  unfold contain
  split <;> rfl

/-- No complaint gets out of a contained run. -/
theorem failure_contain_ne_complaint (r : Run) (cause : Complaint) :
    r.contain.failure ≠ some (.complaint cause) := by
  intro h
  unfold contain at h
  split at h
  · simp at h
  · rename_i hne
    exact hne cause h

end Run

end RpnCalculator
