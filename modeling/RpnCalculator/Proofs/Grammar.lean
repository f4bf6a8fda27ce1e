import Mathlib.Computability.Language
import RpnCalculator.Proofs.Numeral

/-!
# The grammar of lexemes

Every kind has a regular language, `Kind.language`, and a grammar tries the kinds in a fixed order: a
word is of the first kind whose language it belongs to (`Kind.first?`). The languages overlap, so the
order matters. The words of a line are its maximal runs of characters that are no blanks, as
`Text.Runs` says without cutting the line. By these rules a line has one list of lexemes and no other,
and it is the one that the calculator works with (`lexes_iff`).
-/

namespace RpnCalculator

open Computability

theorem Text.isDigit_iff {c : Char} : c.isDigit ↔ '0' ≤ c ∧ c ≤ '9' := by
  simp only [Char.isDigit, Bool.and_eq_true, decide_eq_true_eq, ge_iff_le]
  rfl

namespace Grammar

/-- The texts of one character that satisfies a condition. -/
def single (p : Char → Prop) : Language Char := {text | ∃ c, p c ∧ text = [c]}

/-- The texts of one character from `low` to `high`. -/
def range (low high : Char) : Language Char := single fun c => low ≤ c ∧ c ≤ high

/-- The texts of a language, and the empty one. -/
def optional (l : Language Char) : Language Char := 1 + l

/-- One or more texts of a language in a row. -/
def many (l : Language Char) : Language Char := l * l∗

/-- An optional minus sign and a text of a language. -/
def withSign (l : Language Char) : Language Char := optional (single (· = '-')) * l

variable {p : Char → Prop} {l : Language Char} {word : Text}

theorem mem_single : word ∈ single p ↔ ∃ c, p c ∧ word = [c] := Iff.rfl

theorem mem_single_mul : word ∈ single p * l ↔ ∃ c rest, p c ∧ rest ∈ l ∧ word = c :: rest := by
  rw [Language.mem_mul]
  constructor
  · rintro ⟨_, ⟨c, hc, rfl⟩, rest, hrest, rfl⟩
    exact ⟨c, rest, hc, hrest, rfl⟩
  · rintro ⟨c, rest, hc, hrest, rfl⟩
    exact ⟨[c], ⟨c, hc, rfl⟩, rest, hrest, rfl⟩

/-- The first character of a text tells that it is not of a language. -/
theorem cons_notMem_single_mul {c : Char} (hc : ¬ p c) (rest : Text) : c :: rest ∉ single p * l := by
  rw [mem_single_mul]
  rintro ⟨d, ds, hd, -, hcons⟩
  exact hc ((List.cons.inj hcons).1 ▸ hd)

theorem mem_kstar_single : word ∈ (single p)∗ ↔ ∀ c ∈ word, p c := by
  rw [Language.mem_kstar]
  constructor
  · rintro ⟨parts, rfl, hparts⟩ c hc
    obtain ⟨part, hpart, hc⟩ := List.mem_flatten.1 hc
    obtain ⟨d, hd, rfl⟩ := hparts part hpart
    exact List.mem_singleton.1 hc ▸ hd
  · intro h
    refine ⟨word.map fun c => [c], (List.flatMap_singleton' word).symm, fun part hpart => ?_⟩
    obtain ⟨c, hc, rfl⟩ := List.mem_map.1 hpart
    exact ⟨c, h c hc, rfl⟩

theorem mem_many_single : word ∈ many (single p) ↔ word ≠ [] ∧ ∀ c ∈ word, p c := by
  rw [many, mem_single_mul]
  constructor
  · rintro ⟨c, rest, hc, hrest, rfl⟩
    exact ⟨List.cons_ne_nil c rest, List.forall_mem_cons.2 ⟨hc, mem_kstar_single.1 hrest⟩⟩
  · rintro ⟨hne, h⟩
    obtain ⟨c, rest, rfl⟩ := List.exists_cons_of_ne_nil hne
    obtain ⟨hc, hrest⟩ := List.forall_mem_cons.1 h
    exact ⟨c, rest, hc, mem_kstar_single.2 hrest, rfl⟩

/-- A language in which no text begins with a minus sign is read behind one. -/
theorem mem_withSign (hl : ∀ rest, '-' :: rest ∉ l) :
    word ∈ withSign l ↔ Text.dropMinus word ∈ l := by
  have hiff : word ∈ withSign l ↔ word ∈ l ∨ ∃ rest ∈ l, word = '-' :: rest := by
    rw [withSign, optional, add_mul, one_mul, Language.mem_add, mem_single_mul]
    simp
  rw [hiff]
  unfold Text.dropMinus
  split
  · rename_i rest
    simp [hl rest]
  · rename_i hne
    refine or_iff_left ?_
    rintro ⟨rest, -, rfl⟩
    exact hne rest rfl

end Grammar

namespace Kind

open Grammar

/-- The language of a kind. -/
def language : Kind → Language Char
  | octal => withSign (single (· = '0') * many (range '0' '7'))
  | malformed => withSign (single (· = '0') * (range '0' '9' * many (range '0' '9')))
  | decimal => withSign (many (range '0' '9'))
  | operator => single (· ∈ ['-', '+', '*', '/', '%', '^'])
  | comment => single (· = '#')
  | character => single fun c => ¬ Text.isBlank c
  | expression => many (single fun c => ¬ Text.isBlank c)

/-- The kinds in the order in which they are tried. Without `comments` there are no comment marks. -/
def order (comments : Bool) : List Kind :=
  if comments then [octal, malformed, decimal, operator, comment, character, expression]
  else [octal, malformed, decimal, operator, character, expression]

variable {word : Text}

theorem mem_language_octal : word ∈ octal.language ↔ Text.isOctal word := by
  rw [language, mem_withSign (cons_notMem_single_mul (by decide)), mem_single_mul, Text.isOctal]
  simp only [range, mem_many_single]
  split
  · rename_i c cs heq
    rw [heq]
    simp [Text.isOctalDigit]
  · rename_i hne
    simp only [Bool.false_eq_true, iff_false]
    rintro ⟨_, rest, rfl, ⟨hrest, -⟩, heq⟩
    obtain ⟨c, cs, rfl⟩ := List.exists_cons_of_ne_nil hrest
    exact hne c cs heq

theorem mem_language_malformed : word ∈ malformed.language ↔ Text.isMalformed word := by
  rw [language, mem_withSign (cons_notMem_single_mul (by decide)), mem_single_mul,
    Text.isMalformed]
  simp only [range, mem_single_mul, mem_many_single, ← Text.isDigit_iff]
  split
  · rename_i c d cs heq
    rw [heq]
    simp
  · rename_i hne
    simp only [Bool.false_eq_true, iff_false]
    rintro ⟨_, _, rfl, ⟨c, rest, -, ⟨hrest, -⟩, rfl⟩, heq⟩
    obtain ⟨d, cs, rfl⟩ := List.exists_cons_of_ne_nil hrest
    exact hne c d cs heq

theorem mem_language_decimal : word ∈ decimal.language ↔ Text.isDecimal word := by
  have hminus : ∀ rest, '-' :: rest ∉ many (range '0' '9') := cons_notMem_single_mul (by decide)
  rw [language, mem_withSign hminus, range, mem_many_single, Text.isDecimal_iff]
  simp only [Text.isDigit_iff]

theorem mem_language_operator : word ∈ operator.language ↔ Text.isOperator word := by
  rw [language, mem_single, Text.isOperator, Option.isSome_iff_exists]
  simp only [Operator.ofText?_eq_some_iff]
  constructor
  · rintro ⟨c, hc, rfl⟩
    simp only [List.mem_cons, List.not_mem_nil, or_false] at hc
    rcases hc with rfl | rfl | rfl | rfl | rfl | rfl
    · exact ⟨.sub, rfl⟩
    · exact ⟨.add, rfl⟩
    · exact ⟨.mul, rfl⟩
    · exact ⟨.div, rfl⟩
    · exact ⟨.mod, rfl⟩
    · exact ⟨.pow, rfl⟩
  · rintro ⟨o, rfl⟩
    exact ⟨o.symbol, by cases o <;> decide, rfl⟩

theorem mem_language_comment : word ∈ comment.language ↔ word = ['#'] := by
  simp [language, mem_single]

theorem mem_language_character :
    word ∈ character.language ↔ word.length = 1 ∧ ∀ c ∈ word, ¬ Text.isBlank c := by
  rw [language, mem_single]
  constructor
  · rintro ⟨c, hc, rfl⟩
    simpa using hc
  · rintro ⟨hone, hword⟩
    obtain ⟨c, rfl⟩ := List.length_eq_one_iff.1 hone
    exact ⟨c, hword c List.mem_cons_self, rfl⟩

theorem mem_language_expression :
    word ∈ expression.language ↔ word ≠ [] ∧ ∀ c ∈ word, ¬ Text.isBlank c := by
  rw [language, mem_many_single]

instance (k : Kind) (word : Text) : Decidable (word ∈ k.language) :=
  match k with
  | octal => decidable_of_iff _ mem_language_octal.symm
  | malformed => decidable_of_iff _ mem_language_malformed.symm
  | decimal => decidable_of_iff _ mem_language_decimal.symm
  | operator => decidable_of_iff _ mem_language_operator.symm
  | comment => decidable_of_iff _ mem_language_comment.symm
  | character =>
    decidable_of_iff (word.length = 1 ∧ word.all (! Text.isBlank ·))
      (by simp [mem_language_character])
  | expression =>
    decidable_of_iff (word ≠ [] ∧ word.all (! Text.isBlank ·)) (by simp [mem_language_expression])

/-- The kind of a word by the grammar: the first whose language the word belongs to. -/
def first? (comments : Bool) (word : Text) : Option Kind :=
  (order comments).find? (word ∈ ·.language)

/-- The words of a line have a kind by the grammar, and it is the one that they are given. -/
theorem first?_eq_ofWord (hne : word ≠ []) (hword : ∀ c ∈ word, ¬ Text.isBlank c)
    (comments : Bool) : first? comments word = some (ofWord comments word) := by
  have hexpression : word ∈ expression.language := mem_language_expression.2 ⟨hne, hword⟩
  have hcharacter : word ∈ character.language ↔ word.length = 1 :=
    mem_language_character.trans (and_iff_left hword)
  have hcons : ∀ (k : Kind) (ks : List Kind), (k :: ks).find? (word ∈ ·.language) =
      if word ∈ k.language then some k else ks.find? (word ∈ ·.language) := by
    intro k ks
    by_cases hk : word ∈ k.language <;> simp [hk]
  rw [first?, ofWord]
  cases comments with
  | false =>
      simp [order, hcons, mem_language_octal, mem_language_malformed, mem_language_decimal,
        mem_language_operator, hcharacter, hexpression, apply_ite some]
  | true =>
      simp [order, hcons, mem_language_octal, mem_language_malformed, mem_language_decimal,
        mem_language_operator, mem_language_comment, hcharacter, hexpression, apply_ite some]

example : (order true).filter ("010".toList ∈ ·.language) =
    [octal, malformed, decimal, expression] := by decide

end Kind

namespace Text

/-- The maximal runs of characters of a text that are no blanks, in order: a run ends where the text
ends or a blank stands, and what stands between two runs is blanks. -/
inductive Runs : Text → List Text → Prop
  | blanks {gap : Text} (hgap : ∀ c ∈ gap, isBlank c) : Runs gap []
  | run {gap run rest : Text} {runs : List Text} (hgap : ∀ c ∈ gap, isBlank c) (hne : run ≠ [])
      (hrun : ∀ c ∈ run, ¬ isBlank c) (hend : ∀ c ∈ rest.head?, isBlank c)
      (hrest : Runs rest runs) : Runs (gap ++ run ++ rest) (run :: runs)

variable {line : Text} {runs : List Text}

theorem Runs.eq_words (h : Runs line runs) : runs = words line := by
  induction h with
  | blanks hgap => simpa using (words_blanks_append hgap []).symm
  | @run gap run rest runs hgap hne hrun hend hrest ih =>
      rw [List.append_assoc, words_blanks_append hgap, ih]
      cases rest with
      | nil => rw [List.append_nil, words_eq_singleton hne hrun, words_nil]
      | cons c cs =>
          have hc : isBlank c := hend c rfl
          rw [words_append_cons hc, words_eq_singleton hne hrun, words_cons_of_isBlank hc,
            List.singleton_append]

/-- A text may begin with a run. -/
theorem Runs.run_append {run rest : Text} (hne : run ≠ []) (hrun : ∀ c ∈ run, ¬ isBlank c)
    (hend : ∀ c ∈ rest.head?, isBlank c) (hrest : Runs rest runs) :
    Runs (run ++ rest) (run :: runs) :=
  @Runs.run [] run rest runs (by simp) hne hrun hend hrest

/-- A blank before a text joins the gap before its first run. -/
theorem Runs.cons_blank {c : Char} (hc : isBlank c) (h : Runs line runs) :
    Runs (c :: line) runs := by
  cases h with
  | blanks hgap => exact .blanks (List.forall_mem_cons.2 ⟨hc, hgap⟩)
  | run hgap hne hrun hend hrest =>
      exact .run (List.forall_mem_cons.2 ⟨hc, hgap⟩) hne hrun hend hrest

/-- Any other character before a text joins its first run or is a run of its own. -/
theorem Runs.exists_cons {c : Char} (hc : ¬ isBlank c) (h : Runs line runs) :
    ∃ runs, Runs (c :: line) runs := by
  by_cases hend : ∀ d ∈ line.head?, isBlank d
  · have hrun : ∀ d ∈ [c], ¬ isBlank d := by simpa using hc
    exact ⟨[c] :: runs, .run_append (List.cons_ne_nil c []) hrun hend h⟩
  · cases h with
    | @blanks gap hgap =>
        exact absurd (fun d hd => hgap d (List.mem_of_mem_head? hd)) hend
    | @run gap run rest runs hgap hne hrun hrest hruns =>
        cases gap with
        | nil =>
            have hjoined : ∀ d ∈ c :: run, ¬ isBlank d := List.forall_mem_cons.2 ⟨hc, hrun⟩
            exact ⟨_, .run_append (List.cons_ne_nil c run) hjoined hrest hruns⟩
        | cons d ds =>
            exact absurd (by simpa using hgap d List.mem_cons_self) hend

theorem runs_iff : Runs line runs ↔ runs = words line := by
  refine ⟨Runs.eq_words, ?_⟩
  rintro rfl
  -- By the first part there are no other runs than the words, so it is enough that there are some.
  have hexists : ∃ runs, Runs line runs := by
    induction line with
    | nil => exact ⟨[], .blanks (by simp)⟩
    | cons c cs ih =>
        obtain ⟨runs, hruns⟩ := ih
        by_cases hc : isBlank c
        · exact ⟨runs, hruns.cons_blank hc⟩
        · exact hruns.exists_cons hc
  obtain ⟨runs, hruns⟩ := hexists
  exact hruns.eq_words ▸ hruns

end Text

/-- A list of lexemes is one of a line by the grammar: it has the runs of the line, each of them with
its kind. -/
structure Lexes (comments : Bool) (line : Text) (xs : List Lexeme) : Prop where
  runs : Text.Runs line (xs.map Lexeme.text)
  kind : ∀ x ∈ xs, Kind.first? comments x.text = some x.kind

/-- By the grammar a line has one list of lexemes. -/
theorem lexes_iff {comments : Bool} {line : Text} {xs : List Lexeme} :
    Lexes comments line xs ↔ xs = lexemes comments line := by
  constructor
  · rintro ⟨hruns, hkinds⟩
    have hwords := Text.runs_iff.1 hruns
    have hkind : ∀ x ∈ xs, Lexeme.ofWord comments x.text = x := by
      intro x hx
      have hmem : x.text ∈ Text.words line := hwords ▸ List.mem_map_of_mem hx
      have hfirst := Kind.first?_eq_ofWord (Text.ne_nil_of_mem_words hmem)
        (fun c => Text.not_isBlank_of_mem_words hmem) comments
      rw [hkinds x hx, Option.some.injEq] at hfirst
      rw [Lexeme.ofWord, ← hfirst]
    calc xs = xs.map fun x => Lexeme.ofWord comments x.text := by
          rw [List.map_congr_left hkind, List.map_id']
      _ = lexemes comments line := by rw [lexemes, ← hwords, List.map_map, Function.comp_def]
  · rintro rfl
    refine ⟨Text.runs_iff.2 (map_text_lexemes comments line), fun x hx => ?_⟩
    obtain ⟨hword, hkind⟩ := mem_lexemes.1 hx
    rw [hkind]
    exact Kind.first?_eq_ofWord (Text.ne_nil_of_mem_words hword)
      (fun c => Text.not_isBlank_of_mem_words hword) comments

theorem Kind.ofWord_false (word : Text) :
    Kind.ofWord false word = if word = ['#'] then .character else Kind.ofWord true word := by
  by_cases hmark : word = ['#']
  · rw [hmark]
    rfl
  · simp [Kind.ofWord, hmark]

/-- Comment marks make no other difference to the lexemes of a line. -/
theorem lexemes_false (line : Text) :
    lexemes false line =
      (lexemes true line).map fun x => if x.text = ['#'] then ⟨.character, x.text⟩ else x := by
  rw [lexemes, lexemes, List.map_map]
  refine List.map_congr_left fun word _ => ?_
  rw [Function.comp_apply, Lexeme.text_ofWord, Lexeme.ofWord, Kind.ofWord_false]
  split <;> rfl

/-- Every line has exactly one list of lexemes by the grammar, and the comment mark is the only word
that the two grammars tell apart. -/
theorem lexemes_grammar (comments : Bool) (line : Text) :
    (∀ xs, Lexes comments line xs ↔ xs = lexemes comments line) ∧
      lexemes false line =
        (lexemes true line).map fun x => if x.text = ['#'] then ⟨.character, x.text⟩ else x :=
  ⟨fun _ => lexes_iff, lexemes_false line⟩

end RpnCalculator
