import RpnCalculator.Proofs.Numeral

/-!
# The lexemes that lines have

`Lexeme.Proper` lists what a lexeme of a line can be, with the text that goes with each kind: a
numeral, one of the six operators, the comment mark, a character, or an expression. It is the one
place where the spellings that the kinds are told by meet the spellings that the machine can read, so
what is said of the machine and a proper lexeme holds of every line (`proper_of_mem_lexemes`).
-/

namespace RpnCalculator

namespace Lexeme

/-- A lexeme is proper when its text is of the form that its kind promises. -/
inductive Proper : Lexeme → Prop
  | numeral (a : Numeral) : Proper a.lexeme
  | operator (o : Operator) : Proper ⟨.operator, [o.symbol]⟩
  | comment : Proper ⟨.comment, ['#']⟩
  | character {c : Char} (hblank : ¬ Text.isBlank c) : Proper ⟨.character, [c]⟩
  | expression (text : Text) : Proper ⟨.expression, text⟩

theorem proper_ofWord {word : Text} (hne : word ≠ []) (hblank : ∀ c ∈ word, ¬ Text.isBlank c)
    (comments : Bool) : (ofWord comments word).Proper := by
  by_cases hdecimal : Text.isDecimal word
  · obtain ⟨a, rfl⟩ := Numeral.exists_text_eq hdecimal
    rw [a.ofWord_text]
    exact .numeral a
  · rw [ofWord, Kind.ofWord_of_not_isDecimal hdecimal]
    split
    · rename_i hoperator
      obtain ⟨o, ho⟩ := Option.isSome_iff_exists.1 hoperator
      rw [Operator.ofText?_eq_some_iff.1 ho]
      exact .operator o
    · split
      · rename_i hmark
        rw [Bool.and_eq_true, beq_iff_eq] at hmark
        rw [hmark.2]
        exact .comment
      · split
        · rename_i hone
          obtain ⟨c, rfl⟩ := List.length_eq_one_iff.1 (beq_iff_eq.1 hone)
          exact .character (hblank c List.mem_cons_self)
        · exact .expression word

theorem proper_of_mem_lexemes {comments : Bool} {line : Text} {x : Lexeme}
    (h : x ∈ lexemes comments line) : x.Proper := by
  obtain ⟨word, hword, rfl⟩ := List.mem_map.1 h
  exact proper_ofWord (Text.ne_nil_of_mem_words hword)
    (fun c hc => Text.not_isBlank_of_mem_words hword hc) comments

/-- A lexeme that the machine can make sense of: a word of the kind that its spelling tells, which as
a numeral has a value in the base of its kind, unless it is too long, and as an operator is one of the
six. -/
structure Readable (x : Lexeme) : Prop where
  ne_nil : x.text ≠ []
  not_isBlank : ∀ c ∈ x.text, ¬ Text.isBlank c
  kind_eq : ∃ comments, x.kind = Kind.ofWord comments x.text
  octal : x.kind = .octal → (Text.read? 8 x.text).isSome
  decimal : x.kind = .decimal → ((Text.read? 10 x.text).isSome ↔ ¬ x.TooLong)
  operator : x.kind = .operator → (Operator.ofText? x.text).isSome

/-- The tables for the kinds, for the bases and for the operators agree. -/
theorem Proper.tables_agree {x : Lexeme} (h : x.Proper) :
    (x.kind = .octal → (Text.read? 8 x.text).isSome) ∧
      (x.kind = .decimal → ((Text.read? 10 x.text).isSome ↔ ¬ x.TooLong)) ∧
        (x.kind = .operator → (Operator.ofText? x.text).isSome) := by
  cases h with
  | numeral a =>
      have htext : a.lexeme.text = a.text := rfl
      rw [htext]
      rcases a.kind_and_base with ⟨hkind, hbase⟩ | ⟨hkind, _⟩ | ⟨hkind, hbase⟩
      · have hread := a.read?_text (by simp [hkind]) (by simp [TooLong, hkind])
        rw [hbase] at hread
        simp [hkind, hread]
      · simp [hkind]
      · have hread (hlong : ¬ a.lexeme.TooLong) : (Text.read? 10 a.text).isSome := by
          rw [← hbase, a.read?_text (by simp [hkind]) hlong, Option.isSome_some]
        have hnone (hlong : a.lexeme.TooLong) : ¬ (Text.read? 10 a.text).isSome := by
          simp [a.read?_of_tooLong hlong]
        have hiff : (Text.read? 10 a.text).isSome ↔ ¬ a.lexeme.TooLong :=
          ⟨fun hsome hlong => hnone hlong hsome, hread⟩
        simp [hkind, hiff]
  | operator o => simp [Operator.ofText?]
  | comment => simp
  | character hblank => simp
  | expression text => simp

theorem readable_of_mem_lexemes {comments : Bool} {line : Text} {x : Lexeme}
    (h : x ∈ lexemes comments line) : x.Readable := by
  obtain ⟨hoctal, hdecimal, hoperator⟩ := (proper_of_mem_lexemes h).tables_agree
  obtain ⟨word, hword, rfl⟩ := List.mem_map.1 h
  exact ⟨Text.ne_nil_of_mem_words hword, fun c => Text.not_isBlank_of_mem_words hword,
    ⟨comments, rfl⟩, hoctal, hdecimal, hoperator⟩

end Lexeme

end RpnCalculator
