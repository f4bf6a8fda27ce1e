import Mathlib.Data.List.DropRight
import RpnCalculator.CommandLine.Input
import RpnCalculator.Text.Blank

/-!
# How input is cut into lines

`Input.Cuts` says how a text is cut at line feeds, at carriage returns, and at the two in the other
order, and `Input.FeedCuts` how it is cut at line feeds alone. A line that comes of the second way can
be cut further in the first: that leaves its words as they are (`Cuts.flatMap_words`), and no line that
comes of it is longer (`length_le_of_mem_lines`).
-/

namespace RpnCalculator

namespace Input

/-- How a text is cut into lines: each ends at the first line feed or carriage return, or at the two
in the other order, and what is left behind the last end is a line if it is not empty. -/
inductive Cuts : Text → List Text → Prop
  | nil : Cuts [] []
  | last {line : Text} (hne : line ≠ []) (hline : ∀ c ∈ line, ¬ isLineEnd c) : Cuts line [line]
  | lineFeed {line text : Text} {lines : List Text} (hline : ∀ c ∈ line, ¬ isLineEnd c)
      (h : Cuts text lines) : Cuts (line ++ '\n' :: text) (line :: lines)
  | carriageReturn {line text : Text} {lines : List Text} (hline : ∀ c ∈ line, ¬ isLineEnd c)
      (hnext : text.head? ≠ some '\n') (h : Cuts text lines) :
      Cuts (line ++ '\r' :: text) (line :: lines)
  | both {line text : Text} {lines : List Text} (hline : ∀ c ∈ line, ¬ isLineEnd c)
      (h : Cuts text lines) : Cuts (line ++ '\r' :: '\n' :: text) (line :: lines)

variable {c : Char} {line text : Text} {cut : List Text}

theorem lines_lineFeed (text : Text) : lines ('\n' :: text) = [] :: lines text := by
  simp [lines]

theorem lines_carriageReturn (hnext : text.head? ≠ some '\n') :
    lines ('\r' :: text) = [] :: lines text := by
  cases text with
  | nil => rfl
  | cons d rest =>
      have hd : d ≠ '\n' := fun h => hnext (congrArg some h)
      simp [lines, hd]

theorem lines_cons (hc : ¬ isLineEnd c) (text : Text) :
    lines (c :: text) = consLine c (lines text) := by
  have hne : c ≠ '\r' ∧ c ≠ '\n' := by simpa [isLineEnd] using hc
  rw [lines]
  · exact if_neg (not_or.2 hne)
  · exact fun _ h => absurd h hne.1

/-- Characters that end no line go to the front of the first line. -/
theorem lines_append (hline : ∀ c ∈ line, ¬ isLineEnd c) (text : Text) :
    lines (line ++ text) = line.foldr consLine (lines text) := by
  induction line with
  | nil => rfl
  | cons c rest ih =>
      rw [List.cons_append, lines_cons (hline c List.mem_cons_self),
        ih fun d hd => hline d (List.mem_cons_of_mem _ hd), List.foldr_cons]

theorem foldr_consLine_cons (line first : Text) (cut : List Text) :
    line.foldr consLine (first :: cut) = (line ++ first) :: cut := by
  induction line with
  | nil => rfl
  | cons c rest ih => rw [List.foldr_cons, ih, consLine, List.cons_append]

theorem foldr_consLine_nil (hne : line ≠ []) : line.foldr consLine [] = [line] := by
  induction line with
  | nil => exact absurd rfl hne
  | cons c rest ih =>
      cases rest with
      | nil => rfl
      | cons d rest => rw [List.foldr_cons, ih (List.cons_ne_nil d rest), consLine]

theorem Cuts.lines_eq (h : Cuts text cut) : lines text = cut := by
  induction h with
  | nil => rfl
  | @last line hne hline =>
      rw [← line.append_nil, lines_append hline, lines_nil, line.append_nil,
        foldr_consLine_nil hne]
  | lineFeed hline h ih =>
      rw [lines_append hline, lines_lineFeed, foldr_consLine_cons, List.append_nil, ih]
  | carriageReturn hline hnext h ih =>
      rw [lines_append hline, lines_carriageReturn hnext, foldr_consLine_cons, List.append_nil, ih]
  | both hline h ih =>
      rw [lines_append hline, lines, foldr_consLine_cons, List.append_nil, ih]

theorem Cuts.consLine (hc : ¬ isLineEnd c) (h : Cuts text cut) :
    Cuts (c :: text) (consLine c cut) := by
  have hcons {line : Text} (hline : ∀ d ∈ line, ¬ isLineEnd d) : ∀ d ∈ c :: line, ¬ isLineEnd d :=
    List.forall_mem_cons.2 ⟨hc, hline⟩
  cases h with
  | nil => exact .last (List.cons_ne_nil c []) (hcons (List.forall_mem_nil _))
  | last hne hline => exact .last (List.cons_ne_nil _ _) (hcons hline)
  | lineFeed hline h => exact .lineFeed (hcons hline) h
  | carriageReturn hline hnext h => exact .carriageReturn (hcons hline) hnext h
  | both hline h => exact .both (hcons hline) h

theorem cuts_lines (text : Text) : Cuts text (lines text) := by
  fun_induction lines text with
  | case1 => exact .nil
  | case2 text ih => exact @Cuts.both [] text _ (List.forall_mem_nil _) ih
  | case3 c text hpair hend ih =>
      rcases hend with rfl | rfl
      · refine @Cuts.carriageReturn [] text _ (List.forall_mem_nil _) (fun h => ?_) ih
        obtain ⟨rest, hrest⟩ := List.head?_eq_some_iff.1 h
        exact hpair rest rfl hrest
      · exact @Cuts.lineFeed [] text _ (List.forall_mem_nil _) ih
  | case4 c text hpair hend ih => exact ih.consLine (by simpa [isLineEnd] using hend)

/-- There is one way to cut a text into lines. -/
theorem cuts_iff : Cuts text cut ↔ cut = lines text :=
  ⟨fun h => h.lines_eq.symm, fun h => h ▸ cuts_lines text⟩

theorem Cuts.not_isLineEnd (h : Cuts text cut) (hmem : line ∈ cut) (hc : c ∈ line) :
    ¬ isLineEnd c := by
  induction h with
  | nil => cases hmem
  | last hne hline => exact hline c (List.mem_singleton.1 hmem ▸ hc)
  | lineFeed hline h ih | carriageReturn hline hnext h ih | both hline h ih =>
      rcases List.mem_cons.1 hmem with rfl | hmem
      · exact hline c hc
      · exact ih hmem

/-- The lines of a text have its words. -/
theorem Cuts.flatMap_words (h : Cuts text cut) : cut.flatMap Text.words = Text.words text := by
  induction h with
  | nil => rfl
  | last hne hline => exact List.flatMap_singleton ..
  | lineFeed hline h ih | carriageReturn hline hnext h ih =>
      rw [List.flatMap_cons, ih, Text.words_append_cons (by decide)]
  | both hline h ih =>
      rw [List.flatMap_cons, ih, Text.words_append_cons (by decide),
        Text.words_cons_of_isBlank (by decide)]

/-- The lines of a text have all its characters but those that end a line. -/
theorem Cuts.flatten (h : Cuts text cut) : cut.flatten = text.filter (! isLineEnd ·) := by
  have hfilter {line : Text} (hline : ∀ c ∈ line, ¬ isLineEnd c) :
      line.filter (! isLineEnd ·) = line :=
    List.filter_eq_self.2 fun c hc => by simpa using hline c hc
  induction h with
  | nil => rfl
  | @last line hne hline => rw [hfilter hline, List.flatten_singleton]
  | lineFeed hline h ih | carriageReturn hline hnext h ih | both hline h ih =>
      rw [List.flatten_cons, ih, List.filter_append, hfilter hline]
      rfl

theorem lines_ne_nil (hne : text ≠ []) : lines text ≠ [] := by
  intro hnil
  have h := cuts_lines text
  rw [hnil] at h
  cases h
  exact hne rfl

/-- A text that is cut at a line feed is cut into lines on both sides of it. -/
theorem lines_append_lineFeed (before text : Text) :
    lines (before ++ '\n' :: text) = lines (before ++ ['\n']) ++ lines text := by
  fun_induction lines before with
  | case1 => exact lines_lineFeed text
  | case2 before ih => exact congrArg ([] :: ·) ih
  | case3 c before hpair hend ih =>
      rcases hend with rfl | rfl
      · cases before with
        | nil => rfl
        | cons d before =>
            have hd : d ≠ '\n' := fun h => hpair before rfl (h ▸ rfl)
            have hnext (rest : Text) : (d :: rest).head? ≠ some '\n' := fun h =>
              hd (Option.some.inj h)
            simp only [List.cons_append] at ih ⊢
            rw [lines_carriageReturn (hnext _), lines_carriageReturn (hnext _), ih,
              List.cons_append]
      · rw [List.cons_append, List.cons_append, lines_lineFeed, lines_lineFeed, ih,
          List.cons_append]
  | case4 c before hpair hend ih =>
      have hc : ¬ isLineEnd c := by simpa [isLineEnd] using hend
      obtain ⟨first, rest, hfirst⟩ := List.exists_cons_of_ne_nil
        (lines_ne_nil (List.append_ne_nil_of_right_ne_nil before (List.cons_ne_nil '\n' [])))
      rw [List.cons_append, List.cons_append, lines_cons hc, lines_cons hc, ih, hfirst]
      rfl

/-! What is left of a text without the ends of lines behind it. -/

theorem stripEnd_prefix (text : Text) : stripEnd text <+: text :=
  List.rdropWhile_prefix isLineEnd text

theorem stripEnd_of_not_isLineEnd (h : ∀ c ∈ text, ¬ isLineEnd c) : stripEnd text = text :=
  List.rdropWhile_eq_self_iff.2 fun hne => h _ (List.getLast_mem hne)

theorem exists_append_eq_stripEnd (text : Text) :
    ∃ ends, stripEnd text ++ ends = text ∧ ∀ c ∈ ends, isLineEnd c :=
  ⟨text.rtakeWhile isLineEnd, List.rdropWhile_append_rtakeWhile, fun _ => List.mem_rtakeWhile_imp⟩

theorem stripEnd_append_lineFeed (text : Text) : stripEnd (text ++ ['\n']) = stripEnd text :=
  List.rdropWhile_concat_pos _ _ _ rfl

theorem stripEnd_of_mem_lines (hline : line ∈ lines text) : stripEnd line = line :=
  stripEnd_of_not_isLineEnd fun _ hc => (cuts_lines text).not_isLineEnd hline hc

theorem words_stripEnd (text : Text) : Text.words (stripEnd text) = Text.words text := by
  obtain ⟨ends, htext, hends⟩ := exists_append_eq_stripEnd text
  have hblank : ∀ c ∈ ends, Text.isBlank c := fun c hc => by
    have hc := hends c hc
    simp only [isLineEnd, Bool.or_eq_true, beq_iff_eq] at hc
    rcases hc with rfl | rfl <;> decide
  rw [← Text.words_append_blanks hblank (stripEnd text), htext]

/-- No line of a text is longer than the text without the ends of lines behind it. -/
theorem length_le_of_mem_lines (hline : line ∈ lines text) :
    line.length ≤ (stripEnd text).length := by
  obtain ⟨ends, htext, hends⟩ := exists_append_eq_stripEnd text
  have hflatten : (lines text).flatten = (stripEnd text).filter (! isLineEnd ·) := by
    have hnone : ends.filter (! isLineEnd ·) = [] :=
      List.filter_eq_nil_iff.2 fun c hc => by simpa using hends c hc
    rw [(cuts_lines text).flatten, ← List.append_nil ((stripEnd text).filter _), ← hnone,
      ← List.filter_append, htext]
  calc line.length ≤ (lines text).flatten.length := (List.sublist_flatten_of_mem hline).length_le
    _ ≤ (stripEnd text).length := hflatten ▸ List.length_filter_le _ _

/-- If no line ends in the first characters of a text, they are the first ones of a line. -/
theorem exists_lines_eq_cons (hne : line ≠ []) (hline : ∀ c ∈ line, ¬ isLineEnd c)
    (hbegins : line <+: text) : ∃ first others, lines text = (line ++ first) :: others := by
  obtain ⟨rest, rfl⟩ := hbegins
  rw [lines_append hline]
  cases lines rest with
  | nil => exact ⟨[], [], by rw [foldr_consLine_nil hne, List.append_nil]⟩
  | cons first others => exact ⟨first, others, foldr_consLine_cons line first others⟩

/-! Line feeds alone. -/

/-- How a text is cut into lines at its line feeds: what is left behind the last of them is a line if
it is not empty. -/
inductive FeedCuts : Text → List Text → Prop
  | nil : FeedCuts [] []
  | last {line : Text} (hne : line ≠ []) (hline : '\n' ∉ line) : FeedCuts line [line]
  | lineFeed {line text : Text} {lines : List Text} (hline : '\n' ∉ line)
      (h : FeedCuts text lines) : FeedCuts (line ++ '\n' :: text) (line :: lines)

theorem FeedCuts.consLine (hc : c ≠ '\n') (h : FeedCuts text cut) :
    FeedCuts (c :: text) (consLine c cut) := by
  have hcons {line : Text} (hline : '\n' ∉ line) : '\n' ∉ c :: line :=
    List.not_mem_cons_of_ne_of_not_mem hc.symm hline
  cases h with
  | nil => exact .last (List.cons_ne_nil c []) (hcons List.not_mem_nil)
  | last hne hline => exact .last (List.cons_ne_nil _ _) (hcons hline)
  | lineFeed hline h => exact .lineFeed (hcons hline) h

theorem feedCuts_feedLines (text : Text) : FeedCuts text (feedLines text) := by
  fun_induction feedLines text with
  | case1 => exact .nil
  | case2 text ih => exact @FeedCuts.lineFeed [] text _ List.not_mem_nil ih
  | case3 c text hc ih => exact ih.consLine hc

theorem feedLines_append (hline : '\n' ∉ line) (text : Text) :
    feedLines (line ++ text) = line.foldr consLine (feedLines text) := by
  induction line with
  | nil => rfl
  | cons c rest ih =>
      have hne : c ≠ '\n' := fun h => hline (h ▸ List.mem_cons_self)
      rw [List.cons_append, feedLines, if_neg hne, ih fun h => hline (List.mem_cons_of_mem _ h),
        List.foldr_cons]

@[simp] theorem linesBy_nil (ends : LineEnds) : linesBy ends [] = [] := by
  cases ends <;> rfl

theorem linesBy_append (ends : LineEnds) (hline : ∀ c ∈ line, ¬ isLineEnd c) (text : Text) :
    linesBy ends (line ++ text) = line.foldr consLine (linesBy ends text) := by
  cases ends with
  | feed => exact feedLines_append (fun h => hline _ h rfl) text
  | any => exact lines_append hline text

theorem linesBy_lineFeed (ends : LineEnds) (text : Text) :
    linesBy ends ('\n' :: text) = [] :: linesBy ends text := by
  cases ends with
  | feed => rfl
  | any => exact lines_lineFeed text

/-- Whether no carriage return stands among the first characters of a line that is too long, where lines
are cut at line feeds alone. -/
def Plain (text : Text) : Prop :=
  ∀ line ∈ feedLines text,
    (stripEnd line).length ≤ 128 ∨ '\r' ∉ (stripEnd line).take 129

instance (text : Text) : Decidable (Plain text) :=
  inferInstanceAs (Decidable (∀ line ∈ feedLines text, _ ∨ _))

end Input

end RpnCalculator
