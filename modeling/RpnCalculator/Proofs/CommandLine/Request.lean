import Mathlib.Data.List.TakeWhile
import RpnCalculator.CommandLine.Request

/-!
# Arguments with lines behind them

Arguments are read from left to right, and what has been read is not read again: a flag only adds
to the draft (`Draft.read_preserves`). So arguments that make a request can be followed by others,
which are read from there on, as long as no value is missing at the end of the first
(`Draft.read_append`). After the flag of the expressions all that follows is lines
(`ofArguments?_append_expression`), but for one thing: an argument is looked at before it is known
whether it is a line, and one that begins with `--=` may be short for the name of any flag.
-/

namespace RpnCalculator

namespace Flag

theorem eq_of_head?_long {f g : Flag} (h : f.long.head? = g.long.head?) : f = g := by
  cases f <;> cases g <;> first | rfl | exact absurd h (by decide)

theorem head?_long_of_mem_completions {f : Flag} {c : Char} {text : Text}
    (h : f ∈ completions (c :: text)) : f.long.head? = some c := by
  obtain ⟨rest, hrest⟩ := List.isPrefixOf_iff_prefix.1 (List.mem_filter.1 h).2
  rw [← hrest]
  rfl

/-- The first character of a long name tells which flag it is. -/
theorem completions_cons (c : Char) (text : Text) :
    completions (c :: text) = [] ∨ ∃ f, completions (c :: text) = [f] := by
  have hnodup : (completions (c :: text)).Nodup := List.Pairwise.filter _ (by decide : all.Nodup)
  match h : completions (c :: text) with
  | [] => exact .inl rfl
  | [f] => exact .inr ⟨f, rfl⟩
  | f :: g :: rest =>
      have hf : f ∈ completions (c :: text) := h ▸ List.mem_cons_self
      have hg : g ∈ completions (c :: text) := h ▸ List.mem_cons_of_mem _ List.mem_cons_self
      rw [h, eq_of_head?_long ((head?_long_of_mem_completions hf).trans
        (head?_long_of_mem_completions hg).symm)] at hnodup
      exact absurd List.mem_cons_self (List.nodup_cons.1 hnodup).1

end Flag

namespace Argument

/-- The beginning of an argument that may be short for the long name of any flag. -/
def anyFlag : Text := ['-', '-', '=']

theorem ambiguity?_of_anyFlag {text : Text} (h : anyFlag <+: text) :
    ambiguity? text = some (.ambiguous text Flag.all) := by
  obtain ⟨rest, rfl⟩ := h
  rfl

theorem exists_fst_splitMark_cons {c : Char} (hc : c ≠ '=') (text : Text) :
    ∃ rest, (splitMark (c :: text)).1 = c :: rest := by
  rw [splitMark, List.dropWhile_cons_of_pos (by simpa using hc),
    List.takeWhile_cons_of_pos (by simpa using hc)]
  split
  · exact ⟨text, rfl⟩
  · exact ⟨_, rfl⟩

theorem ofDashed_ne_ambiguous (text : Text) (flags : List Flag) :
    ofDashed text ≠ .ambiguous flags := by
  rw [ofDashed]
  split <;> exact Argument.noConfusion

/-- No other argument may be short for several flags, but for the one that ends them. -/
theorem ofText_ne_ambiguous {text : Text} (hterminator : text ≠ terminator)
    (h : ¬ anyFlag <+: text) (flags : List Flag) : ofText text ≠ .ambiguous flags := by
  fun_cases ofText text with
  | case1 => exact ofDashed_ne_ambiguous _ _
  | case2 => exact Argument.noConfusion
  | case3 name parts hnil hone =>
      have hsplit : parts = splitMark name := rfl
      clear_value parts
      match name with
      | [] => exact absurd rfl hterminator
      | c :: rest =>
          have hc : c ≠ '=' := fun hc => h ⟨rest, by rw [hc]; rfl⟩
          obtain ⟨beginning, hbeginning⟩ := exists_fst_splitMark_cons hc rest
          rw [hsplit, hbeginning] at hnil hone
          rcases Flag.completions_cons c beginning with hnone | ⟨flag, hflag⟩
          · exact absurd hnone hnil
          · exact absurd hflag (hone flag)
  | case4 => exact Argument.noConfusion
  | case5 => exact Argument.noConfusion
  | case6 => exact ofDashed_ne_ambiguous _ _
  | case7 => exact Argument.noConfusion

theorem ambiguity?_eq_none {text : Text} (hterminator : text ≠ terminator)
    (h : ¬ anyFlag <+: text) : ambiguity? text = none := by
  rw [ambiguity?]
  split
  · exact absurd ‹_› (ofText_ne_ambiguous hterminator h _)
  · rfl

end Argument

namespace Cluster

variable {flag : Flag} {cluster : Cluster} {following more values : List Text}

/-- A flag that does not take all that follows looks no further than the next argument. -/
theorem valuesOf_append (hflag : flag ≠ .expression)
    (hmore : ∀ text ∈ more.head?, Argument.ofText text ≠ .plain) :
    valuesOf flag (following ++ more) = valuesOf flag following := by
  have hnext : (following ++ more).head?.filter (Argument.ofText · == .plain) =
      following.head?.filter (Argument.ofText · == .plain) := by
    cases following with
    | cons text rest => rfl
    | nil =>
        cases more with
        | nil => rfl
        | cons text rest => simpa using hmore text rfl
  rw [valuesOf, valuesOf, hnext]
  cases flag <;> first | rfl | exact absurd rfl hflag

theorem length_le_of_valuesOf (h : valuesOf flag following = .ok values) :
    values.length ≤ following.length := by
  have hnext (p : Text → Bool) : (following.head?.filter p).toList.length ≤ following.length := by
    cases following with
    | nil => exact Nat.le_refl 0
    | cons text rest =>
        rw [List.head?_cons, Option.filter_some]
        split
        · exact Nat.succ_le_succ (Nat.zero_le _)
        · exact Nat.zero_le _
  rw [valuesOf] at h
  split at h
  · cases h
    exact Nat.zero_le _
  · cases h
    exact hnext _
  · cases h
    exact Nat.le_refl _
  · split at h
    · rename_i text htext
      cases h
      simpa [htext] using hnext (Argument.ofText · == .plain)
    · cases h

/-- The flags of an argument take no more than there is, and the same if there is more to come. -/
theorem resolve_append {occurrences : List Occurrence} {taken : Nat}
    (hmore : ∀ text ∈ more.head?, Argument.ofText text ≠ .plain)
    (h : cluster.resolve following = .ok (occurrences, taken))
    (hoccurrences : ∀ occurrence ∈ occurrences, occurrence.flag ≠ .expression) :
    cluster.resolve (following ++ more) = .ok (occurrences, taken) ∧
      taken ≤ following.length := by
  rw [resolve] at h ⊢
  cases hwaiting : cluster.waiting with
  | none =>
      rw [hwaiting] at h
      cases h
      exact ⟨rfl, Nat.zero_le _⟩
  | some flag =>
      simp only [hwaiting] at h ⊢
      cases hvalues : valuesOf flag following with
      | error e =>
          rw [hvalues] at h
          cases h
      | ok values =>
          rw [hvalues] at h
          cases h
          have hflag : flag ≠ .expression := hoccurrences ⟨flag, values⟩ (by simp)
          rw [valuesOf_append hflag hmore, hvalues]
          exact ⟨rfl, length_le_of_valuesOf hvalues⟩

end Cluster

namespace Request

theorem exists_of_bind_eq_ok {ε α β : Type} {x : Except ε α} {f : α → Except ε β} {b : β}
    (h : x >>= f = .ok b) : ∃ a, x = .ok a ∧ f a = .ok b := by
  cases x with
  | error e => cases h
  | ok a => exact ⟨a, rfl, h⟩

theorem eq_ok_of_mapError_eq_ok {ε ε' α : Type} {x : Except ε α} {f : ε → ε'} {a : α}
    (h : x.mapError f = .ok a) : x = .ok a := by
  cases x with
  | error e => cases h
  | ok b => exact congrArg Except.ok (Except.ok.inj h)

namespace Draft

variable {d next last : Draft} {taken : Nat} {arguments : List Text}

/-- What a flag does to a draft: it is recorded, unless a flag that excludes it has been met, and
its values go into the request. -/
theorem withFlag_eq_ok_iff {occurrence : Occurrence} :
    d.withFlag occurrence = .ok next ↔
      occurrence.flag.rival?.filter (· ∈ d.seen) = none ∧
        ∃ request, d.request.withFlag occurrence = .ok request ∧
          next = { d with seen := occurrence.flag :: d.seen, request } := by
  rw [withFlag, record]
  cases hrival : occurrence.flag.rival?.filter (· ∈ d.seen) with
  | some earlier => simp [bind, Except.bind]
  | none =>
      show (d.request.withFlag occurrence >>= fun request =>
        Except.ok { d with seen := occurrence.flag :: d.seen, request }) = .ok next ↔ _
      cases d.request.withFlag occurrence with
      | error refusal => simp [bind, Except.bind]
      | ok request => simp [bind, Except.bind, eq_comm]

/-- Reading an argument: its flags are taken up one by one, and what they take is passed over. -/
theorem read_zero_cons {text : Text} {rest : List Text} {cluster : Cluster}
    {occurrences : List Occurrence} (hcluster : Cluster.ofArgument text = .ok cluster)
    (hresolve : cluster.resolve rest = .ok (occurrences, taken))
    (hnext : occurrences.foldlM withFlag { d with stray := d.stray ++ cluster.stray } =
      .ok next) :
    d.read 0 (text :: rest) = next.read taken rest := by
  simp only [read, hcluster, hresolve, hnext, Except.mapError, bind, Except.bind]

theorem exists_of_read_zero_cons {text : Text} {rest : List Text}
    (h : d.read 0 (text :: rest) = .ok last) :
    ∃ cluster occurrences taken next, Cluster.ofArgument text = .ok cluster ∧
      cluster.resolve rest = .ok (occurrences, taken) ∧
        occurrences.foldlM withFlag { d with stray := d.stray ++ cluster.stray } = .ok next ∧
          next.read taken rest = .ok last := by
  obtain ⟨cluster, hcluster, h⟩ := exists_of_bind_eq_ok h
  obtain ⟨⟨occurrences, taken⟩, hresolve, h⟩ := exists_of_bind_eq_ok h
  obtain ⟨next, hnext, h⟩ := exists_of_bind_eq_ok h
  exact ⟨cluster, occurrences, taken, next, eq_ok_of_mapError_eq_ok hcluster,
    eq_ok_of_mapError_eq_ok hresolve, hnext, h⟩

theorem foldlM_preserves {P : Draft → Prop} {occurrences : List Occurrence}
    (hflag : ∀ d occurrence next, P d → d.withFlag occurrence = .ok next → P next)
    (hd : P d) (h : occurrences.foldlM withFlag d = .ok next) : P next := by
  induction occurrences generalizing d with
  | nil => exact Except.ok.inj h ▸ hd
  | cons occurrence rest ih =>
      obtain ⟨middle, hmiddle, h⟩ := exists_of_bind_eq_ok h
      exact ih (hflag d occurrence middle hd hmiddle) h

/-- What taking up a flag and leaving arguments over preserve, reading preserves. -/
theorem read_preserves {P : Draft → Prop}
    (hflag : ∀ d occurrence next, P d → d.withFlag occurrence = .ok next → P next)
    (hstray : ∀ d stray, P d → P { d with stray })
    (hd : P d) (h : d.read taken arguments = .ok last) : P last := by
  induction arguments generalizing d taken with
  | nil =>
      cases h
      exact hd
  | cons text rest ih =>
      cases taken with
      | succ taken => exact ih hd h
      | zero =>
          obtain ⟨cluster, occurrences, taken, next, -, -, hnext, h⟩ :=
            exists_of_read_zero_cons h
          exact ih (foldlM_preserves hflag (hstray d _ hd) hnext) h

theorem mem_seen_withFlag {flag : Flag} (d : Draft) (occurrence : Occurrence) (next : Draft)
    (hflag : flag ∈ d.seen) (h : d.withFlag occurrence = .ok next) : flag ∈ next.seen := by
  obtain ⟨-, request, -, rfl⟩ := withFlag_eq_ok_iff.1 h
  exact List.mem_cons_of_mem _ hflag

theorem mem_seen_of_mem {occurrences : List Occurrence} {occurrence : Occurrence}
    (hmem : occurrence ∈ occurrences) (h : occurrences.foldlM withFlag d = .ok next) :
    occurrence.flag ∈ next.seen := by
  induction occurrences generalizing d with
  | nil => cases hmem
  | cons first rest ih =>
      obtain ⟨middle, hmiddle, h⟩ := exists_of_bind_eq_ok h
      rcases List.mem_cons.1 hmem with rfl | hmem
      · obtain ⟨-, request, -, rfl⟩ := withFlag_eq_ok_iff.1 hmiddle
        exact foldlM_preserves mem_seen_withFlag List.mem_cons_self h
      · exact ih hmem h

theorem mem_seen_read {flag : Flag} (hflag : flag ∈ d.seen)
    (h : d.read taken arguments = .ok last) : flag ∈ last.seen :=
  read_preserves mem_seen_withFlag (fun _ _ hd => hd) hflag h

/-- Reading arguments with others behind them. The last flag of the first must not be that of the
expressions, and it must have all its values. -/
theorem read_append {more : List Text} (htaken : taken ≤ arguments.length)
    (hmore : ∀ text ∈ more.head?, Argument.ofText text ≠ .plain)
    (h : d.read taken arguments = .ok last) (hlast : .expression ∉ last.seen) :
    d.read taken (arguments ++ more) = last.read 0 more := by
  induction arguments generalizing d taken with
  | nil =>
      cases h
      rw [Nat.le_zero.1 htaken, List.nil_append]
  | cons text rest ih =>
      cases taken with
      | succ taken => exact ih (Nat.le_of_succ_le_succ htaken) h
      | zero =>
          obtain ⟨cluster, occurrences, taken, next, hcluster, hresolve, hnext, h⟩ :=
            exists_of_read_zero_cons h
          -- The flag of the expressions would have been met by the end, wherever it stood.
          have hoccurrences : ∀ occurrence ∈ occurrences, occurrence.flag ≠ .expression :=
            fun occurrence hmem hflag =>
              hlast (mem_seen_read (hflag ▸ mem_seen_of_mem hmem hnext) h)
          obtain ⟨hmoreresolve, hlength⟩ := Cluster.resolve_append hmore hresolve hoccurrences
          rw [← ih hlength h]
          exact read_zero_cons hcluster hmoreresolve hnext

theorem read_of_length_le (h : arguments.length ≤ taken) : d.read taken arguments = .ok d := by
  induction arguments generalizing taken with
  | nil => rw [read]
  | cons text rest ih =>
      obtain ⟨taken, rfl⟩ := Nat.exists_eq_add_one_of_ne_zero (Nat.ne_zero_of_lt h)
      exact ih (Nat.le_of_succ_le_succ h)

/-- The flag of the expressions takes all that follows. -/
theorem read_expression (hprompt : .prompt ∉ d.seen) (lines : List Text) :
    d.read 0 (['-', 'e'] :: lines) =
      .ok { d with seen := .expression :: d.seen,
                   request := { d.request with expressions := some lines } } := by
  have hcluster : Cluster.ofArgument ['-', 'e'] = .ok (.ofWaiting .expression) := rfl
  have hresolve : (Cluster.ofWaiting .expression).resolve lines =
      .ok ([⟨.expression, lines⟩], lines.length) := rfl
  have hflag : d.withFlag ⟨.expression, lines⟩ =
      .ok { d with seen := .expression :: d.seen,
                   request := { d.request with expressions := some lines } } :=
    withFlag_eq_ok_iff.2 ⟨by simpa [Flag.rival?] using hprompt, _, rfl, rfl⟩
  have hnext : [⟨.expression, lines⟩].foldlM withFlag
      { d with stray := d.stray ++ (Cluster.ofWaiting .expression).stray } =
        .ok { d with seen := .expression :: d.seen,
                     request := { d.request with expressions := some lines } } := by
    rw [Cluster.ofWaiting, List.append_nil, List.foldlM_cons, hflag]
    rfl
  rw [read_zero_cons hcluster hresolve hnext]
  exact read_of_length_le (Nat.le_refl _)

end Draft

/-- The lines and the prompt of a request are changed by their own flags only. -/
theorem withFlag_source {request next : Request} {occurrence : Occurrence}
    (h : request.withFlag occurrence = .ok next) :
    next.expressions = (if occurrence.flag = .expression then some occurrence.values
        else request.expressions) ∧
      next.prompt = (if occurrence.flag = .prompt then
        some (occurrence.values.headD defaultPrompt) else request.prompt) := by
  obtain ⟨flag, values⟩ := occurrence
  cases flag with
  | help => cases h
  | seed =>
      rw [withFlag] at h
      split at h
      · cases h
        exact ⟨rfl, rfl⟩
      · cases h
  | _ =>
      cases h
      exact ⟨rfl, rfl⟩

/-- Whether the flags met that say where the lines come from have left their values in the
request. -/
structure Draft.Sourced (d : Draft) : Prop where
  expressions : .expression ∈ d.seen → d.request.expressions.isSome
  prompt : .prompt ∈ d.seen → d.request.prompt.isSome

namespace Draft

variable {d last : Draft} {taken : Nat} {arguments : List Text}

theorem sourced_empty : ({} : Draft).Sourced := ⟨nofun, nofun⟩

theorem Sourced.withFlag (d : Draft) (occurrence : Occurrence) (next : Draft) (hd : d.Sourced)
    (h : d.withFlag occurrence = .ok next) : next.Sourced := by
  obtain ⟨-, request, hrequest, rfl⟩ := withFlag_eq_ok_iff.1 h
  obtain ⟨hexpressions, hprompt⟩ := withFlag_source hrequest
  constructor
  · intro hmem
    rw [hexpressions]
    split
    · rfl
    · rename_i hne
      exact hd.expressions ((List.mem_cons.1 hmem).resolve_left (Ne.symm hne))
  · intro hmem
    rw [hprompt]
    split
    · rfl
    · rename_i hne
      exact hd.prompt ((List.mem_cons.1 hmem).resolve_left (Ne.symm hne))

theorem Sourced.read (hd : d.Sourced) (h : d.read taken arguments = .ok last) : last.Sourced :=
  read_preserves Sourced.withFlag (fun _ _ hd => ⟨hd.expressions, hd.prompt⟩) hd h

end Draft

theorem ofArguments?_of_terminator_notMem {arguments : List Text}
    (hterminator : Argument.terminator ∉ arguments) :
    ofArguments? arguments =
      match arguments.findSome? Argument.ambiguity? with
      | some error => .error (.usage error)
      | none => Draft.read {} 0 arguments >>= fun d =>
        if d.stray.isEmpty then .ok d.request else .error (.usage (.unrecognised d.stray)) := by
  have hne : ∀ text ∈ arguments, (text != Argument.terminator) = true :=
    fun text htext => bne_iff_ne.2 fun h => hterminator (h ▸ htext)
  rw [ofArguments?, List.takeWhile_eq_self_iff.2 hne, List.dropWhile_eq_nil_iff.2 hne]
  cases arguments.findSome? Argument.ambiguity? with
  | some error => rfl
  | none =>
      refine congrArg (Draft.read {} 0 arguments >>= ·) (funext fun d => ?_)
      rw [List.append_nil]

/-- The argument that ends the flags has no meaning, so it is wrong wherever it stands. -/
theorem terminator_notMem_of_ofArguments? {arguments : List Text} {request : Request}
    (h : ofArguments? arguments = .ok request) : Argument.terminator ∉ arguments := by
  intro hmem
  rw [ofArguments?] at h
  split at h
  · cases h
  · obtain ⟨d, -, h⟩ := exists_of_bind_eq_ok h
    have hrest : arguments.dropWhile (· != Argument.terminator) ≠ [] := fun hnil =>
      absurd rfl (bne_iff_ne.1 (List.dropWhile_eq_nil_iff.1 hnil _ hmem))
    rw [if_neg (by simpa using fun _ => hrest)] at h
    cases h

/-- Arguments make a request if none of them ends the flags or may be short for several, and reading
them leaves none over. -/
theorem ofArguments?_eq_ok_iff {arguments : List Text} {request : Request} :
    ofArguments? arguments = .ok request ↔
      Argument.terminator ∉ arguments ∧ (∀ text ∈ arguments, Argument.ambiguity? text = none) ∧
        ∃ d, Draft.read {} 0 arguments = .ok d ∧ d.stray = [] ∧ d.request = request := by
  constructor
  · intro h
    have hterminator := terminator_notMem_of_ofArguments? h
    rw [ofArguments?_of_terminator_notMem hterminator] at h
    split at h
    · cases h
    · rename_i hambiguity
      obtain ⟨d, hread, h⟩ := exists_of_bind_eq_ok h
      split at h
      · rename_i hstray
        exact ⟨hterminator, List.findSome?_eq_none_iff.1 hambiguity, d, hread,
          List.isEmpty_iff.1 hstray, Except.ok.inj h⟩
      · cases h
  · rintro ⟨hterminator, hambiguity, d, hread, hstray, rfl⟩
    rw [ofArguments?_of_terminator_notMem hterminator, List.findSome?_eq_none_iff.2 hambiguity,
      hread]
    exact if_pos (List.isEmpty_iff.2 hstray)

variable {options lines : List Text} {request : Request}

theorem terminator_notMem_append_expression (hoptions : Argument.terminator ∉ options)
    (hlines : Argument.terminator ∉ lines) :
    Argument.terminator ∉ options ++ ['-', 'e'] :: lines := by
  intro hmem
  rcases List.mem_append.1 hmem with hmem | hmem
  · exact hoptions hmem
  · exact hlines ((List.mem_cons.1 hmem).resolve_left (by decide))

/-- After arguments that make a request without lines and without a prompt, the flag of the
expressions takes all that follows as lines. -/
theorem ofArguments?_append_expression (h : ofArguments? options = .ok request)
    (hexpressions : request.expressions = none) (hprompt : request.prompt = none)
    (hterminator : Argument.terminator ∉ lines)
    (hlines : ∀ line ∈ lines, ¬ Argument.anyFlag <+: line) :
    ofArguments? (options ++ ['-', 'e'] :: lines) =
      .ok { request with expressions := some lines } := by
  obtain ⟨hoptions, hambiguity, d, hread, hstray, rfl⟩ := ofArguments?_eq_ok_iff.1 h
  -- Neither flag has been met, since either would have left its value in the request.
  have hsourced := Draft.sourced_empty.read hread
  have hexpression : .expression ∉ d.seen := fun hmem => by
    simpa [hexpressions] using hsourced.expressions hmem
  have hseen : .prompt ∉ d.seen := fun hmem => by
    simpa [hprompt] using hsourced.prompt hmem
  have hplain : ∀ text ∈ (['-', 'e'] :: lines).head?, Argument.ofText text ≠ .plain := by
    intro text htext
    cases htext
    decide
  have hall : ∀ text ∈ options ++ ['-', 'e'] :: lines, Argument.ambiguity? text = none := by
    intro text htext
    rcases List.mem_append.1 htext with hmem | hmem
    · exact hambiguity text hmem
    · rcases List.mem_cons.1 hmem with rfl | hmem
      · rfl
      · exact Argument.ambiguity?_eq_none (fun h => hterminator (h ▸ hmem)) (hlines text hmem)
  have hreadall := Draft.read_append (Nat.zero_le _) hplain hread hexpression
  rw [Draft.read_expression hseen] at hreadall
  exact ofArguments?_eq_ok_iff.2
    ⟨terminator_notMem_append_expression hoptions hterminator, hall, _, hreadall, hstray, rfl⟩

/-- The first line that may be short for any flag is an error, although it would be taken. -/
theorem ofArguments?_append_expression_of_anyFlag {line : Text}
    (h : ofArguments? options = .ok request) (hterminator : Argument.terminator ∉ lines)
    (hline : lines.find? (Argument.anyFlag <+: ·) = some line) :
    ofArguments? (options ++ ['-', 'e'] :: lines) =
      .error (.usage (.ambiguous line Flag.all)) := by
  obtain ⟨hoptions, hambiguity, -⟩ := ofArguments?_eq_ok_iff.1 h
  obtain ⟨hbeginning, before, after, rfl, hbefore⟩ := List.find?_eq_some_iff_append.1 hline
  -- All that stands before the line is in order, so the search ends at the line.
  have hnone : ∀ other ∈ before, Argument.ambiguity? other = none := fun other hmem =>
    Argument.ambiguity?_eq_none (fun h => hterminator (h ▸ List.mem_append_left _ hmem))
      (by simpa using hbefore other hmem)
  have hflag : Argument.ambiguity? ['-', 'e'] = none := rfl
  rw [ofArguments?_of_terminator_notMem
      (terminator_notMem_append_expression hoptions hterminator),
    List.findSome?_append, List.findSome?_eq_none_iff.2 hambiguity, List.findSome?_cons, hflag,
    List.findSome?_append, List.findSome?_eq_none_iff.2 hnone, List.findSome?_cons,
    Argument.ambiguity?_of_anyFlag (of_decide_eq_true hbeginning)]
  rfl

end Request

end RpnCalculator
