import Mathlib.Control.Monad.Basic
import RpnCalculator.CommandLine.Program
import RpnCalculator.Proofs.Machine.Containment
import RpnCalculator.Proofs.Machine.Lines

/-!
# How a session of lines ends

A session that runs lines on a machine can be ended by one of them in two ways: the line is too
long, or the machine faults at it (`Machine.Stops`). Up to the first line that ends it the session
does what the machine does with the lines in order (`readAll_append_of_passes`), and that line
alone decides on the exit status.
-/

namespace RpnCalculator

namespace Printed

@[simp] theorem empty_append (p : Printed) : {} ++ p = p := rfl

@[simp] theorem append_empty (p : Printed) : p ++ {} = p := by
  cases p with
  | mk out err => exact congrArg₂ Printed.mk (List.append_nil out) (List.append_nil err)

theorem append_assoc (p q r : Printed) : p ++ q ++ r = p ++ (q ++ r) :=
  congrArg₂ Printed.mk (List.append_assoc p.out q.out r.out)
    (List.append_assoc p.err q.err r.err)

end Printed

namespace Run

/-- What a run prints. -/
def printed (r : Run) : Printed := ⟨r.out, r.err⟩

@[simp] theorem printed_idle (m : Machine) : (idle m).printed = {} := rfl

theorem printed_andThen {r : Run} (h : r.failure = none) (next : Machine → Run) :
    (r.andThen next).printed = r.printed ++ (next r.machine).printed := by
  rw [andThen_of_not_failure h]
  exact congrArg₂ Printed.mk (Event.outOf_append _ _) (Event.errOf_append _ _)

end Run

namespace Machine

variable {m : Machine}

theorem Valid.process (hm : m.Valid) (line : Text) (comments : Bool) :
    (m.process line comments).machine.Valid :=
  invariant_valid.process hm line comments

/-- Whether a line ends a session that runs lines on the machine: it is too long, or the machine
faults at it. -/
def Stops (m : Machine) (line : Text) : Prop :=
  128 < line.length ∨ (m.process line true).failure = some .arithmeticFault

instance (m : Machine) (line : Text) : Decidable (m.Stops line) :=
  inferInstanceAs (Decidable (_ ∨ _))

/-- Whether none of some lines ends a session that runs them in order. -/
def Passes (m : Machine) : List Text → Prop
  | [] => True
  | line :: rest => ¬ m.Stops line ∧ (m.process line true).machine.Passes rest

instance decidablePasses (m : Machine) : (lines : List Text) → Decidable (m.Passes lines)
  | [] => inferInstanceAs (Decidable True)
  | line :: rest =>
    have := decidablePasses (m.process line true).machine rest
    inferInstanceAs (Decidable (_ ∧ _))

/-- A line that a session admits is too short for a numeral that is too long. -/
theorem Valid.failure_process_of_not_stops (hm : m.Valid) {line : Text} (h : ¬ m.Stops line) :
    (m.process line true).failure = none := by
  have hlength : line.length ≤ Text.digitLimit :=
    Nat.le_trans (Nat.le_of_not_lt fun hlong => h (.inl hlong)) (by decide)
  cases hfailure : (m.process line true).failure with
  | none => rfl
  | some failure =>
      rcases hm.failure_process hfailure with rfl | ⟨x, hx, hlong, -⟩
      · exact absurd (.inr hfailure) h
      · exact absurd hlong (not_tooLong_of_mem_flatLexemes hx hlength)

theorem Passes.length_le {lines : List Text} (h : m.Passes lines) :
    ∀ line ∈ lines, line.length ≤ 128 := by
  induction lines generalizing m with
  | nil => exact List.forall_mem_nil _
  | cons line rest ih =>
      exact List.forall_mem_cons.2 ⟨Nat.le_of_not_lt fun hlong => h.1 (.inl hlong), ih h.2⟩

/-- Lines that pass are run to the end. -/
theorem Valid.processLines (hm : m.Valid) {lines : List Text} (h : m.Passes lines) :
    (m.processLines true lines).failure = none ∧ (m.processLines true lines).machine.Valid := by
  induction lines generalizing m with
  | nil => exact ⟨rfl, hm⟩
  | cons line rest ih =>
      rw [processLines_cons, Run.andThen_of_not_failure (hm.failure_process_of_not_stops h.1)]
      exact ih (hm.process line true) h.2

/-- Either all lines pass, or there is a first one that does not. -/
theorem Valid.passes_or_exists_stops (hm : m.Valid) (lines : List Text) :
    m.Passes lines ∨ ∃ before line after, lines = before ++ line :: after ∧ m.Passes before ∧
      (m.processLines true before).machine.Stops line := by
  induction lines generalizing m with
  | nil => exact .inl trivial
  | cons line rest ih =>
      by_cases hline : m.Stops line
      · exact .inr ⟨[], line, rest, rfl, trivial, hline⟩
      · rcases ih (hm.process line true) with hrest | ⟨before, stop, after, rfl, hbefore, hstop⟩
        · exact .inl ⟨hline, hrest⟩
        · refine .inr ⟨line :: before, stop, after, rfl, ⟨hline, hbefore⟩, ?_⟩
          rw [processLines_cons,
            Run.andThen_of_not_failure (hm.failure_process_of_not_stops hline)]
          exact hstop

end Machine

namespace Session

variable {m : Machine} {line : Text}

theorem read_of_too_long (s : Session) (h : 128 < (Input.stripEnd line).length) :
    s.read line = ⟨{}, .error 139⟩ :=
  if_pos h

theorem read_execute (m : Machine) (h : ¬ 128 < (Input.stripEnd line).length) :
    (execute m).read line = (execute m).readStripped (Input.stripEnd line) :=
  if_neg h

theorem read_execute_of_failure (hlength : ¬ 128 < (Input.stripEnd line).length)
    {failure : Failure} (h : (m.process (Input.stripEnd line) true).failure = some failure) :
    (execute m).read line =
      ⟨(m.process (Input.stripEnd line) true).printed, .error (statusOf failure)⟩ := by
  rw [read_execute m hlength, readStripped]
  simp only [h]
  rfl

theorem read_execute_of_not_failure (hlength : ¬ 128 < (Input.stripEnd line).length)
    (h : (m.process (Input.stripEnd line) true).failure = none) :
    (execute m).read line =
      ⟨(m.process (Input.stripEnd line) true).printed,
        .ok (execute (m.process (Input.stripEnd line) true).machine)⟩ := by
  rw [read_execute m hlength, readStripped]
  simp only [h]
  rfl

/-- What a session makes of its machine's run and of the lines that follow. -/
def resume (run : Run) (rest : List Text) : Printed × Option Nat :=
  match run.failure with
  | some failure => (run.printed, some (statusOf failure))
  | none =>
    (run.printed ++ ((execute run.machine).readAll rest).1,
      ((execute run.machine).readAll rest).2)

theorem resume_of_failure {run : Run} {failure : Failure} (h : run.failure = some failure)
    (rest : List Text) : resume run rest = (run.printed, some (statusOf failure)) := by
  simp only [resume, h]

theorem resume_of_not_failure {run : Run} (h : run.failure = none) (rest : List Text) :
    resume run rest =
      (run.printed ++ ((execute run.machine).readAll rest).1,
        ((execute run.machine).readAll rest).2) := by
  simp only [resume, h]

theorem resume_andThen {run : Run} (h : run.failure = none) (next : Machine → Run)
    (rest : List Text) :
    resume (run.andThen next) rest =
      (run.printed ++ (resume (next run.machine) rest).1,
        (resume (next run.machine) rest).2) := by
  have hmachine : (run.andThen next).machine = (next run.machine).machine := by
    rw [Run.andThen_of_not_failure h]
  have hfailure : (run.andThen next).failure = (next run.machine).failure := by
    rw [Run.andThen_of_not_failure h]
  cases hnext : (next run.machine).failure with
  | some failure =>
      rw [resume_of_failure (hfailure.trans hnext), resume_of_failure hnext, Run.printed_andThen h]
  | none =>
      rw [resume_of_not_failure (hfailure.trans hnext), resume_of_not_failure hnext,
        Run.printed_andThen h, hmachine, Printed.append_assoc]

/-- A session runs lines that are not too long as its machine does. -/
theorem readAll_execute_append {lines : List Text}
    (h : ∀ line ∈ lines.map Input.stripEnd, line.length ≤ 128) (m : Machine) (rest : List Text) :
    (execute m).readAll (lines ++ rest) =
      resume (m.processLines true (lines.map Input.stripEnd)) rest := by
  induction lines generalizing m with
  | nil => exact (resume_of_not_failure (Run.failure_idle m) rest).symm
  | cons line lines ih =>
      rw [List.map_cons, List.forall_mem_cons] at h
      have hlength := Nat.not_lt.2 h.1
      rw [List.cons_append, List.map_cons, Machine.processLines_cons]
      cases hfailure : (m.process (Input.stripEnd line) true).failure with
      | some failure =>
          have hread := read_execute_of_failure hlength hfailure
          rw [readAll_cons_of_error (congrArg Reaction.next hread), hread,
            Run.andThen_of_failure hfailure, resume_of_failure hfailure]
      | none =>
          have hread := read_execute_of_not_failure hlength hfailure
          rw [readAll_cons_of_ok (congrArg Reaction.next hread), hread, ih h.2,
            resume_andThen hfailure]

/-- A session runs lines that pass as the machine does, and goes on with the lines after them. -/
theorem readAll_append_of_passes (hm : m.Valid) {lines : List Text}
    (h : m.Passes (lines.map Input.stripEnd)) (rest : List Text) :
    (execute m).readAll (lines ++ rest) =
      ((m.processLines true (lines.map Input.stripEnd)).printed ++
          ((execute (m.processLines true (lines.map Input.stripEnd)).machine).readAll rest).1,
        ((execute (m.processLines true (lines.map Input.stripEnd)).machine).readAll rest).2) := by
  rw [readAll_execute_append h.length_le, resume_of_not_failure (hm.processLines h).1]

/-- A session that dumps does so with all lines that are not too long, and goes on after them. -/
theorem readAll_dump_append {lines : List Text}
    (h : ∀ line ∈ lines.map Input.stripEnd, line.length ≤ 128) (rest : List Text) :
    dump.readAll (lines ++ rest) =
      (⟨((lines.map Input.stripEnd).flatMap (lexemes true)).flatMap dumpLine, []⟩ ++
          (dump.readAll rest).1,
        (dump.readAll rest).2) := by
  induction lines with
  | nil => simp
  | cons line lines ih =>
      rw [List.map_cons, List.forall_mem_cons] at h
      have hread : dump.read line =
          ⟨⟨(lexemes true (Input.stripEnd line)).flatMap dumpLine, []⟩, .ok dump⟩ :=
        if_neg (Nat.not_lt.2 h.1)
      rw [List.cons_append, readAll_cons_of_ok (congrArg Reaction.next hread), hread, ih h.2,
        ← Printed.append_assoc, List.map_cons, List.flatMap_cons, List.flatMap_append]
      rfl

end Session

/-- The machine on which a request is run. -/
def Request.machine (r : Request) : Machine := .ofSeed r.seed r.verbose

theorem Request.valid_machine (r : Request) : r.machine.Valid :=
  Machine.valid_ofSeed r.seed r.verbose

/-- Where the lines of a request come from at a console. -/
def Request.sourceAt (r : Request) (console : Console) : Source :=
  r.source console.inputIsTerminal console.outputIsTerminal

/-- The lines of a request at a console, without their ends. -/
def Request.lines (r : Request) (console : Console) : List Text :=
  (Program.linesOf console (r.sourceAt console)).map Input.stripEnd

namespace Program

variable {arguments : List Text} {console : Console} {request : Request}

theorem run_eq_answer (h : Request.ofArguments? arguments = .ok request) (console : Console) :
    run arguments console = answer request console := by
  rw [run, h]

theorem answer_eq_converse {s : Session} (h : request.session? = some s) (console : Console) :
    answer request console = converse s console (request.sourceAt console) := by
  rw [answer, h]
  rfl

theorem run_eq_converse (hrequest : Request.ofArguments? arguments = .ok request)
    (htask : request.task = .execute) :
    run arguments console =
      converse (.execute request.machine) console (request.sourceAt console) := by
  have hsession : request.session? = some (.execute request.machine) := by
    rw [Request.session?, htask]
    rfl
  rw [run_eq_answer hrequest, answer_eq_converse hsession]

/-- The outcome of a session by what it makes of its lines. -/
theorem converse_execute {m : Machine} {source : Source} {printed : Printed}
    {status : Option Nat}
    (h : (Session.execute m).readAll (linesOf console source) = (printed, status)) :
    converse (.execute m) console source =
      ⟨status.getD (lastStatus console source), promptOf source, printed⟩ := by
  simp only [converse, h]
  rfl

/-- Only a prompt can be interrupted. -/
theorem lastStatus_eq (console : Console) (source : Source) :
    lastStatus console source =
      if (promptOf source).isSome ∧ console.interrupted then 1 else 0 := by
  cases source with
  | arguments lines => rfl
  | prompt text =>
      rw [lastStatus, interruptStatus]
      cases console.interrupted <;> rfl
  | input => rfl

/-- What the program does when it runs lines. The first line that is too long or at which the
machine faults ends it, with a status that tells which, and nothing is printed but what the lines
before it print and, at a fault, what that line prints before the fault. Without such a line all
lines are run, and the status tells whether a prompt has been interrupted. -/
theorem run_of_execute (hrequest : Request.ofArguments? arguments = .ok request)
    (htask : request.task = .execute) :
    (∀ before line after, request.lines console = before ++ line :: after →
      request.machine.Passes before →
        (request.machine.processLines true before).machine.Stops line →
          run arguments console =
            if 128 < line.length then
              ⟨139, promptOf (request.sourceAt console),
                (request.machine.processLines true before).printed⟩
            else
              ⟨136, promptOf (request.sourceAt console),
                (request.machine.processLines true before).printed ++
                  ((request.machine.processLines true before).machine.process line true).printed⟩) ∧
      (request.machine.Passes (request.lines console) →
        run arguments console =
          ⟨if (promptOf (request.sourceAt console)).isSome ∧ console.interrupted then 1 else 0,
            promptOf (request.sourceAt console),
            (request.machine.processLines true (request.lines console)).printed⟩) ∧
        (request.machine.Passes (request.lines console) ∨
          ∃ before line after, request.lines console = before ++ line :: after ∧
            request.machine.Passes before ∧
              (request.machine.processLines true before).machine.Stops line) := by
  have hvalid := request.valid_machine
  refine ⟨?_, ?_, hvalid.passes_or_exists_stops _⟩
  · intro before line after hlines hbefore hline
    obtain ⟨raws, others, hraws, rfl, hothers⟩ := List.map_eq_append_iff.1 hlines
    obtain ⟨raw, rest, rfl, rfl, rfl⟩ := List.map_eq_cons_iff.1 hothers
    have hread := Session.readAll_append_of_passes hvalid hbefore (raw :: rest)
    rw [← hraws] at hread
    rw [run_eq_converse hrequest htask, converse_execute hread]
    split
    · rename_i hlong
      rw [Session.readAll_cons_of_error (congrArg Reaction.next (Session.read_of_too_long _ hlong)),
        Session.read_of_too_long _ hlong, Printed.append_empty]
      rfl
    · rename_i hshort
      have hfault := Session.read_execute_of_failure hshort (hline.resolve_left hshort)
      rw [Session.readAll_cons_of_error (congrArg Reaction.next hfault), hfault]
      rfl
  · intro hpasses
    have hread := Session.readAll_append_of_passes hvalid hpasses []
    rw [List.append_nil, Session.readAll_nil, Printed.append_empty] at hread
    rw [run_eq_converse hrequest htask, converse_execute hread, Option.getD_none, lastStatus_eq]
    rfl

/-- Five lines, of which the third faults and the fourth is too long. -/
def faultingArguments : List Text :=
  ["-v".toList, "-e".toList, "3 #".toList, "r # 2*4 =\r\n".toList, "5 = 0 % 9".toList,
    List.replicate 129 '1', "d".toList]

theorem run_faultingArguments :
    Request.ofArguments? faultingArguments =
        .ok { verbose := true, expressions := some (faultingArguments.drop 2) } ∧
      (Machine.ofSeed 1 true).Passes ["3 #".toList, "r # 2*4 =".toList] ∧
        ((Machine.ofSeed 1 true).processLines true
            ["3 #".toList, "r # 2*4 =".toList]).machine.Stops "5 = 0 % 9".toList ∧
          run faultingArguments {} =
            ⟨136, none, ⟨"8\n5\n".toList, "2*4 -> 2 4 * \n".toList⟩⟩ := by
  have hrequest : Request.ofArguments? faultingArguments =
      .ok { verbose := true, expressions := some (faultingArguments.drop 2) } := by
    decide +kernel
  have hpasses : (Machine.ofSeed 1 true).Passes ["3 #".toList, "r # 2*4 =".toList] := by
    decide +kernel
  have hstops : ((Machine.ofSeed 1 true).processLines true
      ["3 #".toList, "r # 2*4 =".toList]).machine.Stops "5 = 0 % 9".toList := by
    decide +kernel
  obtain ⟨hstop, -, -⟩ := @run_of_execute faultingArguments {} _ hrequest rfl
  refine ⟨hrequest, hpasses, hstops, ?_⟩
  rw [hstop _ _ [List.replicate 129 '1', "d".toList] (by decide +kernel) hpasses hstops]
  decide +kernel

end Program

end RpnCalculator
