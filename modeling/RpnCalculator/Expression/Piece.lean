import RpnCalculator.Text.Basic

/-!
# Pieces of an expression

An expression is cut into maximal runs of digits and single other characters. `pieces` reads from
the right end, so a digit either joins the numeral that the rest begins with or is one of its own;
no scanning for the end of a run is needed.
-/

namespace RpnCalculator

/-- A piece of an expression: a maximal run of digits, or any other character. -/
inductive Piece where
  | numeral (digits : Text)
  | symbol (c : Char)
deriving DecidableEq, Repr

namespace Piece

/-- Whether a piece is a numeral. -/
def isNumeral : Piece → Bool
  | numeral _ => true
  | symbol _ => false

/-- The characters of a piece. -/
def text : Piece → Text
  | numeral digits => digits
  | symbol c => [c]

end Piece

/-- The pieces of a digit followed by text with the given pieces. -/
def consDigit (c : Char) : List Piece → List Piece
  | .numeral digits :: rest => .numeral (c :: digits) :: rest
  | rest => .numeral [c] :: rest

/-- The pieces of an expression, in order. -/
def pieces : Text → List Piece
  | [] => []
  | c :: cs => if c.isDigit then consDigit c (pieces cs) else .symbol c :: pieces cs

@[simp] theorem pieces_nil : pieces [] = [] := rfl

theorem pieces_cons_of_isDigit {c : Char} (h : c.isDigit) (cs : Text) :
    pieces (c :: cs) = consDigit c (pieces cs) := by
  simp [pieces, h]

theorem pieces_cons_of_not_isDigit {c : Char} (h : ¬ c.isDigit) (cs : Text) :
    pieces (c :: cs) = .symbol c :: pieces cs := by
  simp [pieces, h]

theorem flatMap_text_consDigit (c : Char) (rest : List Piece) :
    (consDigit c rest).flatMap Piece.text = c :: rest.flatMap Piece.text := by
  unfold consDigit
  split <;> simp [Piece.text]

/-- The pieces are the expression: nothing is lost and nothing changes its place. -/
theorem flatMap_text_pieces (text : Text) : (pieces text).flatMap Piece.text = text := by
  induction text with
  | nil => rfl
  | cons c cs ih =>
      by_cases h : c.isDigit
      · rw [pieces_cons_of_isDigit h, flatMap_text_consDigit, ih]
      · rw [pieces_cons_of_not_isDigit h]
        simpa [Piece.text] using ih

theorem length_le_of_numeral_mem_pieces {text digits : Text} (h : .numeral digits ∈ pieces text) :
    digits.length ≤ text.length := by
  have hpiece : digits ∈ (pieces text).map Piece.text := List.mem_map.2 ⟨.numeral digits, h, rfl⟩
  have hlength := (List.sublist_flatten_of_mem hpiece).length_le
  rwa [← List.flatMap_def, flatMap_text_pieces] at hlength

/-- A character that is no digit ends the piece before it. -/
theorem pieces_append_cons {c : Char} (h : ¬ c.isDigit) (as bs : Text) :
    pieces (as ++ c :: bs) = pieces as ++ .symbol c :: pieces bs := by
  induction as with
  | nil => exact pieces_cons_of_not_isDigit h bs
  | cons a as ih =>
      by_cases ha : a.isDigit
      · rw [List.cons_append, pieces_cons_of_isDigit ha, pieces_cons_of_isDigit ha, ih]
        unfold consDigit
        cases pieces as with
        | nil => rfl
        | cons piece rest => cases piece <;> rfl
      · rw [List.cons_append, pieces_cons_of_not_isDigit ha, pieces_cons_of_not_isDigit ha, ih]
        rfl

/-- A run of digits is one piece. -/
theorem pieces_of_isDigit {text : Text} (hne : text ≠ []) (h : ∀ c ∈ text, c.isDigit) :
    pieces text = [.numeral text] := by
  induction text with
  | nil => exact absurd rfl hne
  | cons c cs ih =>
      rw [pieces_cons_of_isDigit (h c List.mem_cons_self)]
      cases cs with
      | nil => rfl
      | cons d ds =>
          rw [ih (by simp) fun e he => h e (List.mem_cons_of_mem _ he)]
          rfl

/-- The digits of a numeral are digits, and there is at least one. -/
theorem isDigit_of_numeral_mem_pieces {text digits : Text} (h : .numeral digits ∈ pieces text) :
    digits ≠ [] ∧ ∀ c ∈ digits, c.isDigit := by
  induction text generalizing digits with
  | nil => simp at h
  | cons c cs ih =>
      by_cases hc : c.isDigit
      · rw [pieces_cons_of_isDigit hc] at h
        unfold consDigit at h
        split at h
        · rename_i first rest heq
          rcases List.mem_cons.1 h with hfirst | hrest
          · obtain rfl := Piece.numeral.inj hfirst
            have hold := @ih first (by simp [heq])
            exact ⟨by simp, fun d hd => (List.mem_cons.1 hd).elim (· ▸ hc) (hold.2 d)⟩
          · exact ih (by simp [heq, hrest])
        · rcases List.mem_cons.1 h with hfirst | hrest
          · obtain rfl := Piece.numeral.inj hfirst
            exact ⟨by simp, fun d hd => (List.mem_singleton.1 hd) ▸ hc⟩
          · exact ih hrest
      · rw [pieces_cons_of_not_isDigit hc] at h
        rcases List.mem_cons.1 h with hfirst | hrest
        · cases hfirst
        · exact ih hrest

/-- A symbol is no digit. -/
theorem not_isDigit_of_symbol_mem_pieces {text : Text} {c : Char} (h : .symbol c ∈ pieces text) :
    ¬ c.isDigit := by
  induction text with
  | nil => simp at h
  | cons d ds ih =>
      by_cases hd : d.isDigit
      · rw [pieces_cons_of_isDigit hd] at h
        unfold consDigit at h
        split at h
        · rename_i first rest heq
          exact ih (by simpa [heq] using h)
        · exact ih (by simpa using h)
      · rw [pieces_cons_of_not_isDigit hd] at h
        rcases List.mem_cons.1 h with hfirst | hrest
        · exact Piece.symbol.inj hfirst ▸ hd
        · exact ih hrest

example : pieces "12+3".toList = [.numeral ['1', '2'], .symbol '+', .numeral ['3']] := by decide

end RpnCalculator
