/-!
# Texts

A text is a list of Unicode code points. This file has the one way of cutting a text that the words
of a line and the groups of a numeral share: at every character that satisfies a test.
-/

namespace RpnCalculator

/-- A text, as the list of its code points. -/
abbrev Text := List Char

namespace Text

/-- The parts of a text between the characters that satisfy `p`, which are left out. There is one
part more than there are such characters, so two of them in a row have an empty part between. -/
def cut (p : Char → Bool) : Text → List Text
  | [] => [[]]
  | c :: cs => if p c then [] :: cut p cs else (cut p cs).modifyHead (c :: ·)

@[simp] theorem cut_nil (p : Char → Bool) : cut p [] = [[]] := rfl

theorem cut_cons_of_pos {p : Char → Bool} {c : Char} (h : p c) (cs : Text) :
    cut p (c :: cs) = [] :: cut p cs := by
  simp [cut, h]

theorem cut_cons_of_neg {p : Char → Bool} {c : Char} (h : ¬ p c) (cs : Text) :
    cut p (c :: cs) = (cut p cs).modifyHead (c :: ·) := by
  simp [cut, h]

theorem cut_ne_nil (p : Char → Bool) (cs : Text) : cut p cs ≠ [] := by
  induction cs with
  | nil => simp
  | cons c cs ih =>
      by_cases h : p c
      · simp [cut_cons_of_pos h]
      · simpa [cut_cons_of_neg h] using ih

/-- A text without a cutting character is its own single part. -/
theorem cut_eq_singleton {p : Char → Bool} {cs : Text} (h : ∀ c ∈ cs, ¬ p c) :
    cut p cs = [cs] := by
  induction cs with
  | nil => rfl
  | cons c cs ih =>
      have htail : ∀ d ∈ cs, ¬ p d := fun d hd => h d (List.mem_cons_of_mem _ hd)
      rw [cut_cons_of_neg (h c List.mem_cons_self), ih htail]
      rfl

/-- Cutting a text at a cutting character cuts the text before it and the text after it. -/
theorem cut_append_cons {p : Char → Bool} {c : Char} (h : p c) (as bs : Text) :
    cut p (as ++ c :: bs) = cut p as ++ cut p bs := by
  induction as with
  | nil => simp [cut_cons_of_pos h]
  | cons a as ih =>
      by_cases ha : p a
      · simp [cut_cons_of_pos ha, ih]
      · rw [List.cons_append, cut_cons_of_neg ha, cut_cons_of_neg ha, ih]
        obtain ⟨part, parts, hparts⟩ := List.exists_cons_of_ne_nil (cut_ne_nil p as)
        simp [hparts]

/-- No part has a cutting character in it. -/
theorem not_of_mem_of_mem_cut {p : Char → Bool} {cs part : Text} {c : Char}
    (hpart : part ∈ cut p cs) (hc : c ∈ part) : ¬ p c := by
  induction cs generalizing part with
  | nil => simp_all
  | cons d cs ih =>
      by_cases hd : p d
      · rw [cut_cons_of_pos hd, List.mem_cons] at hpart
        rcases hpart with rfl | hpart
        · simp at hc
        · exact ih hpart hc
      · obtain ⟨first, parts, hparts⟩ := List.exists_cons_of_ne_nil (cut_ne_nil p cs)
        rw [cut_cons_of_neg hd, hparts, List.modifyHead_cons, List.mem_cons] at hpart
        rcases hpart with rfl | hpart
        · rcases List.mem_cons.1 hc with rfl | hc
          · exact hd
          · exact ih (by simp [hparts]) hc
        · exact ih (by simp [hparts, hpart]) hc

end Text

end RpnCalculator
