import RpnCalculator.Proofs.CommandLine.Input
import RpnCalculator.Proofs.CommandLine.Request
import RpnCalculator.Proofs.CommandLine.Session

/-!
# Where the lines come from

A session makes the same of its lines whether they are arguments, are typed at a prompt, or are cut
from the bytes of standard input (`Input.Cuts`). One difference is made before the session: an
argument that begins with `--=` is refused although it is a line (`run_of_lines`). Another is made by
a stream whose lines end at line feeds alone: a session takes the carriage returns inside of a line for
blanks (`Session.readAll_feedLines`), but counts them when it measures the line.
-/

namespace RpnCalculator

namespace Session

theorem statusOf_ne (failure : Failure) : statusOf failure ≠ Program.usageStatus := by
  unfold statusOf
  split <;> decide

/-- No line ends a session with the status of wrong arguments. -/
theorem next_read_ne (s : Session) (line : Text) :
    (s.read line).next ≠ .error Program.usageStatus := by
  rw [read]
  split
  · decide
  · cases s with
    | dump => exact fun h => by cases h
    | execute m =>
        rw [readStripped]
        cases (m.process (Input.stripEnd line) true).failure with
        | none => exact fun h => by cases h
        | some failure => exact fun h => statusOf_ne failure (Except.error.inj h)

theorem status_readAll_ne (s : Session) (lines : List Text) :
    (s.readAll lines).2 ≠ some Program.usageStatus := by
  induction lines generalizing s with
  | nil => exact (Option.some_ne_none _).symm
  | cons line rest ih =>
      cases hnext : (s.read line).next with
      | error status =>
          rw [readAll_cons_of_error hnext]
          exact fun h =>
            s.next_read_ne line (hnext.trans (congrArg Except.error (Option.some.inj h)))
      | ok next =>
          rw [readAll_cons_of_ok hnext]
          exact ih next

/-! A session cuts a line no further. -/

theorem readAll_cons_congr {line other : Text} (hline : Input.stripEnd line = Input.stripEnd other)
    {lines others : List Text} (hrest : ∀ s : Session, s.readAll lines = s.readAll others)
    (s : Session) : s.readAll (line :: lines) = s.readAll (other :: others) := by
  have hread : s.read line = s.read other := by rw [read, read, hline]
  simp only [readAll, hread, hrest]

/-- A line that is not too long has the effect of the lines that it can be cut into. -/
theorem readAll_lines_append_of_le {text : Text} (h : (Input.stripEnd text).length ≤ 128)
    (s : Session) (rest : List Text) :
    s.readAll (Input.lines text ++ rest) = s.readAll (text :: rest) := by
  have hstrip : (Input.lines text).map Input.stripEnd = Input.lines text :=
    (List.map_congr_left fun _ => Input.stripEnd_of_mem_lines).trans (List.map_id _)
  have hlines : ∀ line ∈ (Input.lines text).map Input.stripEnd, line.length ≤ 128 := by
    rw [hstrip]
    exact fun line hline => (Input.length_le_of_mem_lines hline).trans h
  have htext : ∀ line ∈ [text].map Input.stripEnd, line.length ≤ 128 :=
    List.forall_mem_singleton.2 h
  have hwords : ((Input.lines text).map Input.stripEnd).flatMap Text.words =
      ([text].map Input.stripEnd).flatMap Text.words := by
    rw [hstrip, (Input.cuts_lines text).flatMap_words, ← Input.words_stripEnd]
    exact (List.flatMap_singleton ..).symm
  have hlexemes (lines : List Text) :
      lines.flatMap (lexemes true) = (lines.flatMap Text.words).map (Lexeme.ofWord true) := by
    rw [List.map_flatMap]
    rfl
  rw [← List.singleton_append]
  cases s with
  | execute m =>
      rw [readAll_execute_append hlines, readAll_execute_append htext, Machine.processLines_eq_run,
        Machine.processLines_eq_run, hwords]
  | dump =>
      rw [readAll_dump_append hlines, readAll_dump_append htext, hlexemes, hlexemes, hwords]

/-- A line that is too long has the effect of the lines that it can be cut into, if the first of them
is too long. -/
theorem readAll_lines_append_of_lt {text : Text} (hlong : 128 < (Input.stripEnd text).length)
    (hends : ∀ c ∈ (Input.stripEnd text).take 129, ¬ Input.isLineEnd c) (s : Session)
    (rest : List Text) : s.readAll (Input.lines text ++ rest) = s.readAll (text :: rest) := by
  have htake : ((Input.stripEnd text).take 129).length = 129 := by
    rw [List.length_take]
    omega
  obtain ⟨first, others, hlines⟩ := Input.exists_lines_eq_cons
    (List.ne_nil_of_length_pos (by omega)) hends
    ((List.take_prefix 129 _).trans (Input.stripEnd_prefix text))
  have hfirst : 128 < (Input.stripEnd ((Input.stripEnd text).take 129 ++ first)).length := by
    rw [Input.stripEnd_of_mem_lines (hlines ▸ List.mem_cons_self), List.length_append]
    omega
  rw [hlines, List.cons_append,
    readAll_cons_of_error (congrArg Reaction.next (s.read_of_too_long hfirst)),
    readAll_cons_of_error (congrArg Reaction.next (s.read_of_too_long hlong)),
    s.read_of_too_long hfirst, s.read_of_too_long hlong]

theorem readAll_lines_append {text : Text}
    (h : (Input.stripEnd text).length ≤ 128 ∨
      ∀ c ∈ (Input.stripEnd text).take 129, ¬ Input.isLineEnd c) (s : Session) (rest : List Text) :
    s.readAll (Input.lines text ++ rest) = s.readAll (text :: rest) := by
  by_cases hle : (Input.stripEnd text).length ≤ 128
  · exact readAll_lines_append_of_le hle s rest
  · exact readAll_lines_append_of_lt (Nat.lt_of_not_le hle) (h.resolve_left hle) s rest

/-- It makes no difference to a session whether the lines of a plain text are cut at line feeds
alone. -/
theorem readAll_feedLines {text : Text} (h : Input.Plain text) (s : Session) :
    s.readAll (Input.feedLines text) = s.readAll (Input.lines text) := by
  have hends {line : Text} (hfeed : '\n' ∉ line)
      (hline : (Input.stripEnd line).length ≤ 128 ∨ '\r' ∉ (Input.stripEnd line).take 129) :
      (Input.stripEnd line).length ≤ 128 ∨
        ∀ c ∈ (Input.stripEnd line).take 129, ¬ Input.isLineEnd c := by
    refine hline.imp_right fun hreturn c hc hend => ?_
    simp only [Input.isLineEnd, Bool.or_eq_true, beq_iff_eq] at hend
    rcases hend with rfl | rfl
    · exact hreturn hc
    · exact hfeed ((Input.stripEnd_prefix line).subset (List.mem_of_mem_take hc))
  unfold Input.Plain at h
  have hcuts := Input.feedCuts_feedLines text
  generalize Input.feedLines text = cut at h hcuts ⊢
  induction hcuts generalizing s with
  | nil => rfl
  | @last line hne hfeed =>
      rw [← readAll_lines_append (hends hfeed (h line List.mem_cons_self)), List.append_nil]
  | @lineFeed line text cut hfeed hcuts ih =>
      rw [List.forall_mem_cons] at h
      have hline := hends hfeed h.1
      rw [← Input.stripEnd_append_lineFeed] at hline
      rw [Input.lines_append_lineFeed, readAll_lines_append hline]
      exact readAll_cons_congr (Input.stripEnd_append_lineFeed line).symm
        (fun s => ih s h.2) s

theorem readAll_linesBy {ends : Input.LineEnds} {text : Text} (h : ends = .any ∨ Input.Plain text)
    (s : Session) : s.readAll (Input.linesBy ends text) = s.readAll (Input.lines text) := by
  cases ends with
  | any => rfl
  | feed => exact readAll_feedLines (h.resolve_left (by decide)) s

end Session

/-- An outcome but for the prompt. -/
def Outcome.unprompted (o : Outcome) : Outcome := { o with prompt := none }

theorem Outcome.unprompted_of_prompt_eq_none {o : Outcome} (h : o.prompt = none) :
    o.unprompted = o := by
  rw [unprompted, ← h]

namespace Program

variable {options arguments lines : List Text} {request other : Request} {bytes : List UInt8}
  {console place : Console}

/-- Where the lines come from shows in the answer by what a session makes of them, by the status after
the last of them, and by the prompt. -/
theorem answer_congr (hsession : request.session? = other.session?)
    (hlines : ∀ s : Session, s.readAll (linesOf console (request.sourceAt console)) =
      s.readAll (linesOf place (other.sourceAt place)))
    (hstatus : lastStatus console (request.sourceAt console) =
      lastStatus place (other.sourceAt place)) :
    (answer request console).unprompted = (answer other place).unprompted := by
  cases h : other.session? with
  | none => rw [answer, answer, hsession, h]
  | some s =>
      rw [answer_eq_converse (hsession.trans h), answer_eq_converse h, converse, converse, hlines,
        hstatus]
      rfl

theorem unprompted_answer (h : promptOf (request.sourceAt console) = none) :
    (answer request console).unprompted = answer request console := by
  refine Outcome.unprompted_of_prompt_eq_none ?_
  cases hsession : request.session? with
  | none => rw [answer, hsession]
  | some s => rw [answer_eq_converse hsession, converse, h]

/-- An answer is not to be mistaken for a refusal. -/
theorem status_answer_ne (request : Request) (console : Console) :
    (answer request console).status ≠ usageStatus := by
  cases hsession : request.session? with
  | none =>
      rw [answer, hsession]
      exact show 0 ≠ usageStatus by decide
  | some s =>
      rw [answer_eq_converse hsession, converse]
      cases hstatus : (s.readAll (linesOf console (request.sourceAt console))).2 with
      | some status =>
          exact fun h => s.status_readAll_ne _ (hstatus.trans (congrArg some h))
      | none =>
          have hlast : lastStatus console (request.sourceAt console) ≠ usageStatus := by
            rw [lastStatus_eq]
            split <;> decide
          exact hlast

/-- Lines are answered in the same way whether they are the lines of standard input, stand behind
the flag of the expressions, or are typed at a prompt, which is all that differs then. But the flag
of the expressions does not reach a line that begins with `--=`: the first such line is refused. And
if line feeds alone end the lines of standard input, the input must be plain. -/
theorem run_of_lines (h : Request.ofArguments? options = .ok request)
    (hexpressions : request.expressions = none) (hprompt : request.prompt = none)
    (hlines : Input.Cuts (Input.decode bytes) lines) (hterminator : Argument.terminator ∉ lines)
    (hinput : place.input = bytes) (hplace : place.inputIsTerminal = false)
    (hends : place.lineEnds = .any ∨ Input.Plain (Input.decode bytes)) :
    (∀ console, run (options ++ ['-', 'e'] :: lines) console = run options place ↔
        ∀ line ∈ lines, ¬ Argument.anyFlag <+: line) ∧
      (∀ line, lines.find? (Argument.anyFlag <+: ·) = some line →
        ∀ console, run (options ++ ['-', 'e'] :: lines) console =
          ⟨usageStatus, none, ⟨[], (UsageError.ambiguous line Flag.all).report⟩⟩) ∧
        (∀ arguments prompt text (console : Console),
          Request.ofArguments? arguments = .ok { request with prompt } →
            ({ request with prompt } : Request).sourceAt console = .prompt text →
              console.typed = lines → console.interrupted = false →
                (run arguments console).unprompted = run options place) := by
  have hsource : request.sourceAt place = .input := by
    rw [Request.sourceAt, Request.source, hexpressions, hprompt, hplace]
    rfl
  have hpiped (s : Session) :
      s.readAll (linesOf place (request.sourceAt place)) = s.readAll lines := by
    rw [hsource, linesOf, hinput, Session.readAll_linesBy hends, Input.cuts_iff.1 hlines]
  have hstatus : lastStatus place (request.sourceAt place) = 0 := by
    rw [hsource]
    rfl
  have hanswer : run options place = (answer request place).unprompted := by
    rw [run_eq_answer h, unprompted_answer (congrArg promptOf hsource)]
  have hrefused : ∀ line, lines.find? (Argument.anyFlag <+: ·) = some line →
      ∀ console, run (options ++ ['-', 'e'] :: lines) console =
        ⟨usageStatus, none, ⟨[], (UsageError.ambiguous line Flag.all).report⟩⟩ := by
    intro line hline console
    rw [run, Request.ofArguments?_append_expression_of_anyFlag h hterminator hline]
    rfl
  refine ⟨fun console => ⟨fun hrun => ?_, fun hall => ?_⟩, hrefused, ?_⟩
  · cases hfind : lines.find? (Argument.anyFlag <+: ·) with
    | none => simpa using hfind
    | some line =>
        rw [hrefused line hfind, run_eq_answer h] at hrun
        exact absurd (congrArg Outcome.status hrun).symm (status_answer_ne request place)
  · have hexpression :=
      Request.ofArguments?_append_expression h hexpressions hprompt hterminator hall
    rw [hanswer, run_eq_answer hexpression, ← unprompted_answer rfl]
    exact answer_congr rfl (fun s => (hpiped s).symm) hstatus.symm
  · intro arguments prompt text console harguments hconsole htyped hinterrupted
    rw [hanswer, run_eq_answer harguments]
    refine answer_congr rfl (fun s => ?_) ?_
    · rw [hpiped, hconsole, linesOf, htyped]
    · rw [hstatus, hconsole, lastStatus, hinterrupted]
      rfl

/-- Four lines, of which the third looks like a flag. They have ends of each kind, the last has none,
and it begins with a byte that is no ASCII code. -/
def mixedInput : List UInt8 := [50, 42, 52, 13, 10, 10, 45, 118, 13, 233, 32, 61]

/-- The lines of the input. -/
def mixedLines : List Text := ["2*4".toList, [], "-v".toList, "\ufffd =".toList]

theorem run_mixedInput :
    Request.ofArguments? ["-v".toList] = .ok { verbose := true } ∧
      Request.ofArguments? ["-vp?".toList] = .ok { verbose := true, prompt := some ['?'] } ∧
        Input.Cuts (Input.decode mixedInput) mixedLines ∧ Argument.terminator ∉ mixedLines ∧
          Input.Plain (Input.decode mixedInput) ∧
            run (["-v".toList] ++ ['-', 'e'] :: mixedLines) {} =
              run ["-v".toList] { input := mixedInput, lineEnds := .any } ∧
            run (["-v".toList] ++ ['-', 'e'] :: mixedLines) {} =
              run ["-v".toList] { input := mixedInput, lineEnds := .feed } ∧
            (run ["-vp?".toList] { typed := mixedLines }).unprompted =
              run ["-v".toList] { input := mixedInput, lineEnds := .feed } := by
  have hrequest : Request.ofArguments? ["-v".toList] = .ok { verbose := true } := by
    decide +kernel
  have hprompted :
      Request.ofArguments? ["-vp?".toList] = .ok { verbose := true, prompt := some ['?'] } := by
    decide +kernel
  have hlines : Input.Cuts (Input.decode mixedInput) mixedLines :=
    Input.cuts_iff.2 (by decide +kernel)
  have hterminator : Argument.terminator ∉ mixedLines := by decide +kernel
  have hflags : ∀ line ∈ mixedLines, ¬ Argument.anyFlag <+: line := by decide +kernel
  have hplain : Input.Plain (Input.decode mixedInput) := by decide +kernel
  obtain ⟨hany, -, -⟩ :=
    @run_of_lines ["-v".toList] mixedLines { verbose := true } mixedInput
      { input := mixedInput, lineEnds := .any } hrequest rfl rfl hlines hterminator rfl rfl (.inl rfl)
  obtain ⟨hfeed, -, hprompt⟩ :=
    @run_of_lines ["-v".toList] mixedLines { verbose := true } mixedInput
      { input := mixedInput, lineEnds := .feed } hrequest rfl rfl hlines hterminator rfl rfl
      (.inr hplain)
  exact ⟨hrequest, hprompted, hlines, hterminator, hplain, (hany {}).2 hflags, (hfeed {}).2 hflags,
    hprompt _ (some ['?']) ['?'] _ hprompted rfl rfl rfl⟩

/-- A line of standard input that is refused as an argument. -/
def ambiguousInput : List UInt8 := [45, 45, 61, 49, 10]

/-- What is said about it. -/
def ambiguousText : Text :=
  ("ambiguous option: --=1 could match --help, --verbose, --seed, --expression, --prompt, " ++
    "--raw-grammar, --dump").toList

theorem run_ambiguousInput :
    Input.Cuts (Input.decode ambiguousInput) ["--=1".toList] ∧
      Argument.terminator ∉ ["--=1".toList] ∧
        run [] { input := ambiguousInput } =
          ⟨0, none, ⟨[], "Stack empty.\nStack underflow.\nStack underflow.\n".toList⟩⟩ ∧
            run ["-e".toList, "--=1".toList] {} =
              ⟨2, none, ⟨[], usageLine ++ "srpn: error: ".toList ++ ambiguousText ++ ['\n']⟩⟩ :=
  ⟨Input.cuts_iff.2 (by decide +kernel), by decide +kernel, by decide +kernel, by decide +kernel⟩

/-- Two lines of a hundred digits with a carriage return between them, which is no end of a line where
line feeds alone are. -/
def overlongInput : List UInt8 := List.replicate 100 49 ++ 13 :: List.replicate 100 49 ++ [10]

example : ¬ Input.Plain (Input.decode overlongInput) ∧
    (run [] { input := overlongInput, lineEnds := .feed }).status = 139 ∧
      (run [] { input := overlongInput, lineEnds := .any }).status = 0 := by
  decide +kernel

end Program

end RpnCalculator
