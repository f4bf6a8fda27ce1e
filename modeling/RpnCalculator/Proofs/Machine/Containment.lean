import RpnCalculator.CommandLine.Session
import RpnCalculator.Proofs.Machine.Literal
import RpnCalculator.Proofs.Machine.Reachable

/-!
# What gets out of a line

Of the failures that a lexeme can end in, two get out of a line: the arithmetic fault, and that a
numeral is too long to be read (`Machine.Valid.failure_process`). They do so exactly when the flattened
line comes to a lexeme that halts the machine (`Machine.Halts`), and what the machine has done up to
then is all that it does. A line of ordinary length has no numeral that is too long
(`not_tooLong_of_mem_flatLexemes`), so only the fault gets out of it.
-/

namespace RpnCalculator

theorem readable_of_mem_flatLexemes {comments : Bool} {line : Text} {x : Lexeme}
    (h : x ∈ flatLexemes comments line) : x.Readable := by
  obtain ⟨comments, line, hx⟩ := exists_mem_lexemes_of_mem_flatLexemes h
  exact Lexeme.readable_of_mem_lexemes hx

namespace Machine

variable {m : Machine} {x : Lexeme}

/-- A flattened line that fails has come to a lexeme that ends the run. -/
theorem exists_halts_of_failure_loop (hm : m.Valid) {line : Text} {comments : Bool}
    {failure : Failure} (h : (loop act m [] (flatLexemes comments line)).failure = some failure) :
    ∃ before x after next, flatLexemes comments line = before ++ x :: after ∧
      (loop act m [] before).failure = none ∧
        Halts (loop act m [] before).machine x failure next := by
  obtain ⟨before, x, after, hsplit, hbefore, hx⟩ := exists_of_failure_loop h
  have hvalid : (loop act m [] before).machine.Valid :=
    loop_induction (P := Valid) (fun y _ _ hnext => hnext.act y) hm
  have hcontain : ((loop act m [] before).machine.act x).contain.failure = some failure := by
    rw [Run.contain_eq_self, hx]
    intro cause hcause
    exact failure_loop_ne_complaint m _ cause (h.trans (hx.symm.trans hcause))
  have hmem : x ∈ flatLexemes comments line := by
    rw [hsplit]
    exact List.mem_append_right before List.mem_cons_self
  have houtcome := outcome_act hvalid.1 (proper_of_mem_flatLexemes hmem)
    (kind_of_mem_flatLexemes hmem)
  obtain ⟨next, hhalts⟩ := houtcome.of_failure hcontain
  exact ⟨before, x, after, next, hsplit, hbefore, hhalts⟩

/-- A place in a flattened line is a place among the instructions. -/
theorem exists_instructions_of_flatLexemes {line : Text} {comments : Bool}
    {before after : List Lexeme} (hsplit : flatLexemes comments line = before ++ x :: after) :
    ∃ program rest, instructions comments line = program ++ .act x :: rest ∧
      program.filterMap Instruction.lexeme? = before := by
  rw [← filterMap_lexeme?_instructions] at hsplit
  obtain ⟨first, last, hprogram, hfirst, hlast⟩ := List.filterMap_eq_append_iff.1 hsplit
  obtain ⟨announcements, i, rest, rfl, hannouncements, hi, -⟩ := List.filterMap_eq_cons_iff.1 hlast
  refine ⟨first ++ announcements, rest, ?_, ?_⟩
  · cases i with
    | announce expression => cases hi
    | act y =>
        obtain rfl : y = x := Option.some.inj hi
        rw [hprogram, List.append_assoc]
  · rw [List.filterMap_append, hfirst, List.filterMap_eq_nil_iff.2 hannouncements, List.append_nil]

/-- A line ends at the first lexeme that ends the run, with what has been printed before it. -/
theorem process_of_halts {line : Text} {comments : Bool} {before after : List Lexeme}
    {failure : Failure} {next : Machine}
    (hsplit : flatLexemes comments line = before ++ x :: after)
    (hbefore : (loop act m [] before).failure = none)
    (hhalts : Halts (loop act m [] before).machine x failure next) :
    ∃ program rest, instructions comments line = program ++ .act x :: rest ∧
      program.filterMap Instruction.lexeme? = before ∧
        m.process line comments =
          ⟨next, (loop execute m [] program).events, some failure⟩ := by
  have hmem : x ∈ flatLexemes comments line := by
    rw [hsplit]
    exact List.mem_append_right before List.mem_cons_self
  have hproper := proper_of_mem_flatLexemes hmem
  obtain ⟨program, rest, hinstructions, rfl⟩ := exists_instructions_of_flatLexemes hsplit
  have hagrees := loop_execute_agrees m program
  have hprogram : loop execute m [] program =
      .printing (loop execute m [] program).machine (loop execute m [] program).events := by
    rw [Run.printing, ← hagrees.failure.trans hbefore]
  rw [← hagrees.machine] at hhalts
  have hact : (loop execute m [] program).machine.execute (.act x) = .failing next failure :=
    act_of_halts hproper hhalts
  refine ⟨program, rest, hinstructions, rfl, ?_⟩
  rw [process_eq_loop_execute, hinstructions]
  refine loop_of_failing hprogram hact (fun cause => ?_) rest
  cases hhalts <;> simp

/-- Two failures get out of a line: the arithmetic fault, and that a numeral is too long. -/
theorem Valid.failure_process (hm : m.Valid) {line : Text} {comments : Bool} {failure : Failure}
    (h : (m.process line comments).failure = some failure) :
    failure = .arithmeticFault ∨
      ∃ x ∈ flatLexemes comments line, x.TooLong ∧ failure = .invalidNumeral 10 x.text := by
  rw [(m.process_agrees line comments).failure] at h
  obtain ⟨before, x, after, next, hsplit, -, hhalts⟩ := exists_halts_of_failure_loop hm h
  cases hhalts with
  | fault _ => exact .inl rfl
  | overrun hoverruns =>
      refine .inr ⟨x, ?_, hoverruns.2, rfl⟩
      rw [hsplit]
      exact List.mem_append_right before List.mem_cons_self

/-- Two failures get out of a line. One is the arithmetic fault: it does so exactly when the flattened
line comes to the remainder of a division by zero, and what the machine has done up to then is all that
it does, but that the two operands are gone. The other does so exactly when the flattened line comes to
a numeral that is too long to be read, and then nothing is gone. A line that has itself no more
characters than digits are read has no such numeral. -/
theorem process_contained (h : m.Reachable) (line : Text) (comments : Bool) :
    (∀ failure, (m.process line comments).failure = some failure →
      (failure = .arithmeticFault ∧ Session.statusOf failure = 136) ∨
        ∃ x ∈ flatLexemes comments line, x.TooLong ∧ failure = .invalidNumeral 10 x.text) ∧
      ((m.process line comments).failure = some .arithmeticFault ↔
        ∃ before x after, flatLexemes comments line = before ++ x :: after ∧
          (loop act m [] before).failure = none ∧ Faults (loop act m [] before).machine x) ∧
        (∀ text, (m.process line comments).failure = some (.invalidNumeral 10 text) ↔
          ∃ before x after, flatLexemes comments line = before ++ x :: after ∧
            (loop act m [] before).failure = none ∧ Overruns (loop act m [] before).machine x ∧
              x.text = text) ∧
          (∀ before x after failure next, flatLexemes comments line = before ++ x :: after →
            (loop act m [] before).failure = none →
              Halts (loop act m [] before).machine x failure next →
                ∃ program rest, instructions comments line = program ++ .act x :: rest ∧
                  program.filterMap Instruction.lexeme? = before ∧
                    m.process line comments =
                      ⟨next, (loop execute m [] program).events, some failure⟩) ∧
            (∀ x ∈ flatLexemes comments line, x.Readable) ∧
              (line.length ≤ Text.digitLimit → ∀ x ∈ flatLexemes comments line, ¬ x.TooLong) := by
  have hagrees := m.process_agrees line comments
  -- Whatever the failure is, the line has come to a lexeme that ends the run in it.
  have hsome {failure : Failure} (hfailure : (m.process line comments).failure = some failure) :
      ∃ before x after next, flatLexemes comments line = before ++ x :: after ∧
        (loop act m [] before).failure = none ∧
          Halts (loop act m [] before).machine x failure next :=
    exists_halts_of_failure_loop h.valid (hagrees.failure.symm.trans hfailure)
  refine ⟨fun failure hfailure => (h.valid.failure_process hfailure).imp_left fun hfault =>
      ⟨hfault, hfault ▸ rfl⟩, ⟨fun hfailure => ?_, ?_⟩,
    fun text => ⟨fun hfailure => ?_, ?_⟩,
    fun before x after failure next => process_of_halts,
    fun x => readable_of_mem_flatLexemes,
    fun hline x hx => not_tooLong_of_mem_flatLexemes hx hline⟩
  · obtain ⟨before, x, after, next, hsplit, hbefore, hhalts⟩ := hsome hfailure
    cases hhalts with
    | fault hfaults => exact ⟨before, x, after, hsplit, hbefore, hfaults⟩
  · rintro ⟨before, x, after, hsplit, hbefore, hfaults⟩
    obtain ⟨program, rest, -, -, hprocess⟩ := process_of_halts hsplit hbefore (.fault hfaults)
    rw [hprocess]
  · obtain ⟨before, x, after, next, hsplit, hbefore, hhalts⟩ := hsome hfailure
    cases hhalts with
    | overrun hoverruns => exact ⟨before, x, after, hsplit, hbefore, hoverruns, rfl⟩
  · rintro ⟨before, x, after, hsplit, hbefore, hoverruns, rfl⟩
    obtain ⟨program, rest, -, -, hprocess⟩ := process_of_halts hsplit hbefore (.overrun hoverruns)
    rw [hprocess]

/-- The fault inside the expression is met, and neither the rest of the expression nor the rest of
the line is. A numeral that is too long is met in the same way. -/
theorem process_contained_in_expression :
    (ofSeed 1 true).Reachable ∧
      (∃ before x after, flatLexemes true "3 5%0+1 7".toList = before ++ x :: after ∧
        (loop act (ofSeed 1 true) [] before).failure = none ∧
          Faults (loop act (ofSeed 1 true) [] before).machine x) ∧
        ((ofSeed 1 true).process "3 5%0+1 7".toList true).failure = some .arithmeticFault ∧
          ((ofSeed 1 true).process "3 5%0+1 7".toList true).machine.stack.toList = [3] ∧
            ((ofSeed 1 true).process "3 5%0+1 7".toList true).events =
              [.conversion "5%0+1".toList "5 0 % 1 + ".toList] ∧
              ((ofSeed 1 true).process Numeral.tooManyOnes.text true).failure =
                some (.invalidNumeral 10 Numeral.tooManyOnes.text) := by
  have hreachable : (ofSeed 1 true).Reachable := .ofSeed 1 true
  have hfailure : ((ofSeed 1 true).process "3 5%0+1 7".toList true).failure =
      some .arithmeticFault := by decide +kernel
  have hall := process_contained hreachable "3 5%0+1 7".toList true
  have hlong := process_contained hreachable Numeral.tooManyOnes.text true
  refine ⟨hreachable, hall.2.1.1 hfailure, hfailure, by decide +kernel, by decide +kernel,
    (hlong.2.2.1 _).2 ⟨[], Numeral.tooManyOnes.lexeme, [], ?_, rfl,
      ⟨rfl, Numeral.tooLong_tooManyOnes⟩, rfl⟩⟩
  rw [List.nil_append, Numeral.flatLexemes_text]

end Machine

end RpnCalculator
