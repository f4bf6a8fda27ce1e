import RpnCalculator.Text.Basic

/-!
# Blanks and words

Words are the maximal runs of characters that are no blanks. The blanks are six ASCII characters;
the other white space of Unicode is part of a word.
-/

namespace RpnCalculator

namespace Text

/-- The blanks: tab, line feed, vertical tab, form feed, carriage return and space. -/
def isBlank (c : Char) : Bool :=
  c == '\t' || c == '\n' || c == '\x0b' || c == '\x0c' || c == '\r' || c == ' '

/-- The words of a text, in order. -/
def words (text : Text) : List Text :=
  (cut isBlank text).filter (! ·.isEmpty)

@[simp] theorem words_nil : words [] = [] := rfl

/-- A blank ends a word: what stands before it and what stands after it are split on their own. -/
theorem words_append_cons {c : Char} (h : isBlank c) (as bs : Text) :
    words (as ++ c :: bs) = words as ++ words bs := by
  simp [words, cut_append_cons h]

theorem words_cons_of_isBlank {c : Char} (h : isBlank c) (cs : Text) :
    words (c :: cs) = words cs := by
  simpa using words_append_cons h [] cs

/-- Blanks before a text make no difference to its words. -/
theorem words_blanks_append {blanks : Text} (h : ∀ c ∈ blanks, isBlank c) (text : Text) :
    words (blanks ++ text) = words text := by
  induction blanks with
  | nil => rfl
  | cons c cs ih =>
      rw [List.cons_append, words_cons_of_isBlank (h c List.mem_cons_self)]
      exact ih fun d hd => h d (List.mem_cons_of_mem _ hd)

/-- Blanks that stand between two texts keep their words apart. -/
theorem words_append_blanks_append {blanks : Text} (hne : blanks ≠ [])
    (h : ∀ c ∈ blanks, isBlank c) (as bs : Text) :
    words (as ++ blanks ++ bs) = words as ++ words bs := by
  obtain ⟨c, cs, rfl⟩ := List.exists_cons_of_ne_nil hne
  have hrest : ∀ d ∈ cs, isBlank d := fun d hd => h d (List.mem_cons_of_mem _ hd)
  rw [List.append_assoc, List.cons_append, words_append_cons (h c List.mem_cons_self),
    words_blanks_append hrest]

/-- Blanks after a text make no difference to its words. -/
theorem words_append_blanks {blanks : Text} (h : ∀ c ∈ blanks, isBlank c) (text : Text) :
    words (text ++ blanks) = words text := by
  by_cases hne : blanks = []
  · rw [hne, List.append_nil]
  · simpa using words_append_blanks_append hne h text []

/-- A text without blanks is a word, unless it is empty. -/
theorem words_eq_singleton {text : Text} (hne : text ≠ [])
    (h : ∀ c ∈ text, ¬ isBlank c) : words text = [text] := by
  simp [words, cut_eq_singleton h, hne]

theorem ne_nil_of_mem_words {text word : Text} (h : word ∈ words text) : word ≠ [] := by
  simp only [words, List.mem_filter, Bool.not_eq_true', List.isEmpty_eq_false_iff] at h
  exact h.2

theorem not_isBlank_of_mem_words {text word : Text} {c : Char}
    (h : word ∈ words text) (hc : c ∈ word) : ¬ isBlank c :=
  not_of_mem_of_mem_cut (List.mem_filter.1 h).1 hc

/-- The words hold all characters that are no blanks, in order. -/
theorem flatten_words (text : Text) : (words text).flatten = text.filter (! isBlank ·) := by
  induction text with
  | nil => rfl
  | cons c cs ih =>
      by_cases h : isBlank c
      · simp [words_cons_of_isBlank h, h, ih]
      · have hcut := cut_cons_of_neg h cs
        obtain ⟨part, parts, hparts⟩ := List.exists_cons_of_ne_nil (cut_ne_nil isBlank cs)
        simp only [words, hparts] at ih
        simp only [words, hcut, hparts, List.modifyHead_cons]
        cases part <;> simp_all

theorem length_le_of_mem_words {text word : Text} (h : word ∈ words text) :
    word.length ≤ text.length := by
  have hwords := (List.sublist_flatten_of_mem h).length_le
  rw [flatten_words] at hwords
  exact Nat.le_trans hwords (List.length_filter_le _ text)

end Text

end RpnCalculator
