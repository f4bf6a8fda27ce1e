import RpnCalculator.Proofs.Expression.Conservation

/-!
# One converter for several expressions

A converter that takes up one expression after another adds a text for each of them. Joined by the
command that shows the stack, these texts are the converted form of the expressions joined by the same
command (`Converter.intercalate_additions`): there all operators that wait are released, as they are
at the end of an expression, and what stands on the other side of the command is as good as nothing
for telling the two uses of the minus apart.

What an expression leaves behind for the next one is the flag of a sign that no numeral has taken. It
is lost on a numeral as long as no operator waits, and the first operator clears it, unless that is a
minus in the place of a sign, which turns it over (`Pending.output_raised`).
-/

namespace RpnCalculator

namespace Pending

variable (p : Pending)

/-! Of the pieces around it a piece only needs to know whether they are numerals. -/

theorem read_congr {previous other : Option Piece}
    (hprevious : previous.any Piece.isNumeral = other.any Piece.isNumeral) (piece : Piece)
    {following next : Option Piece}
    (hfollowing : following.any Piece.isNumeral = next.any Piece.isNumeral) :
    p.read previous piece following = p.read other piece next := by
  cases piece with
  | numeral digits => rfl
  | symbol c =>
      rw [read, read]
      cases Operator.ofSymbol? c with
      | some o =>
          simp only
          rw [readOperator, readOperator, negateAfter, negateAfter, hprevious, hfollowing]
      | none => rfl

theorem readAll_congr {previous other : Option Piece}
    (hprevious : previous.any Piece.isNumeral = other.any Piece.isNumeral) (rest : List Piece) :
    p.readAll previous rest = p.readAll other rest := by
  cases rest with
  | nil => rfl
  | cons piece rest => rw [readAll_cons, readAll_cons, p.read_congr hprevious piece rfl]

/-- The command that shows the stack parts what is read before it from what is read after it. -/
theorem readAll_append_displayCommand (previous : Option Piece) (as bs : List Piece) :
    p.readAll previous (as ++ .symbol displayCommand :: bs) =
      ((p.readAll previous as).1 ++ (p.readAll previous as).2.released ++
          .symbol displayCommand :: ((p.readAll previous as).2.release.readAll none bs).1,
        ((p.readAll previous as).2.release.readAll none bs).2) := by
  induction as generalizing p previous with
  | nil =>
      have hcommand : (some (Piece.symbol displayCommand)).any Piece.isNumeral =
          (none : Option Piece).any Piece.isNumeral := rfl
      rw [List.nil_append, readAll_cons, read_displayCommand, readAll_congr _ hcommand]
      simp
  | cons a as ih =>
      -- The command is no numeral, so to the piece before it it is as good as no piece.
      have hfollowing : (as ++ .symbol displayCommand :: bs).head?.any Piece.isNumeral =
          as.head?.any Piece.isNumeral := by
        cases as <;> rfl
      rw [List.cons_append, readAll_cons, p.read_congr rfl a hfollowing, ih, readAll_cons]
      simp only [List.append_assoc]

/-! The flag that an earlier expression has left. -/

/-- Whether the first operator among some pieces is a minus in the place of a sign, which is where no
numeral stands right before it. -/
def signLeads : Option Piece → List Piece → Bool
  | _, [] => false
  | previous, piece :: rest =>
    if piece.isOperator then piece == .symbol '-' && ! previous.any Piece.isNumeral
    else signLeads (some piece) rest

/-- An operator that is no sign waits, and it clears the flag. -/
theorem read_operator_of_not_sign {previous : Option Piece} {c : Char} {o : Operator}
    (ho : Operator.ofSymbol? c = some o)
    (hsign : (Piece.symbol c == .symbol '-' && ! previous.any Piece.isNumeral) = false)
    (negate : Bool) (following : Option Piece) :
    read ⟨[], negate⟩ previous (.symbol c) following = ([], ⟨[o], false⟩) := by
  have hnegate : negateAfter ⟨[], negate⟩ o previous = false := by
    rw [negateAfter]
    obtain rfl := Operator.ofSymbol?_eq_some_iff.1 ho
    cases o <;> simp_all [Operator.symbol]
  simp [read, ho, readOperator, hnegate, isDue]

/-- Any other character leaves the flag as it is. -/
theorem read_symbol_of_not_operator {c : Char} (ho : Operator.ofSymbol? c = none) (negate : Bool)
    (previous following : Option Piece) :
    read ⟨[], negate⟩ previous (.symbol c) following = ([.symbol c], ⟨[], negate⟩) := by
  simp only [read, ho, readSymbol]
  split <;> rfl

/-- While no operator waits, the flag makes no difference but to a minus in the place of a sign. -/
theorem output_raised {previous : Option Piece} {rest : List Piece}
    (h : signLeads previous rest = false) :
    output ⟨[], true⟩ previous rest = output ⟨[], false⟩ previous rest := by
  induction rest generalizing previous with
  | nil => rfl
  | cons piece rest ih =>
      rw [output_cons, output_cons]
      cases piece with
      | numeral digits => exact congrArg _ (ih h)
      | symbol c =>
          cases ho : Operator.ofSymbol? c with
          | some o =>
              -- The first operator clears the flag, so from here on the two states are one.
              rw [signLeads, if_pos (by simp [Piece.isOperator, ho])] at h
              rw [read_operator_of_not_sign ho h, read_operator_of_not_sign ho h]
          | none =>
              rw [signLeads, if_neg (by simp [Piece.isOperator, ho])] at h
              rw [read_symbol_of_not_operator ho, read_symbol_of_not_operator ho]
              exact congrArg _ (ih h)

end Pending

namespace Converter

/-- The text that one more expression adds to that of a converter. -/
def addition (c : Converter) (expression : Text) : Text :=
  (c.add expression).text.drop c.text.length

/-- A converter after some more expressions. -/
def addAll (c : Converter) (expressions : List Text) : Converter := expressions.foldl add c

/-- The texts that expressions add one after another. -/
def additions (c : Converter) : List Text → List Text
  | [] => []
  | expression :: rest => c.addition expression :: (c.add expression).additions rest

variable (c : Converter)

theorem text_add (expression : Text) :
    (c.add expression).text = c.text ++ Item.textOf (c.added expression) :=
  Item.textOf_append _ _

theorem addition_eq (expression : Text) :
    c.addition expression = Item.textOf (c.added expression) := by
  rw [addition, text_add, List.drop_left]

/-- The command that shows the stack inside an expression is like the end of one expression and the
beginning of the next. -/
theorem add_append_displayCommand (as bs : Text) :
    c.addition (as ++ Pending.displayCommand :: bs) =
        c.addition as ++ "d ".toList ++ (c.add as).addition bs ∧
      (c.add (as ++ Pending.displayCommand :: bs)).pending = ((c.add as).add bs).pending := by
  have hread := c.pending.readAll_append_displayCommand none (pieces as) (pieces bs)
  rw [← pieces_append_cons (by decide)] at hread
  have hadded : c.added (as ++ Pending.displayCommand :: bs) =
      c.added as ++ .symbol Pending.displayCommand :: (c.add as).added bs := by
    rw [added, hread, added, added]
    simp only [List.append_assoc, List.cons_append]
    rfl
  refine ⟨?_, ?_⟩
  · rw [addition_eq, addition_eq, addition_eq, hadded]
    simp [Item.text, Pending.displayCommand]
  · rw [add, hread]
    rfl

/-- Joined by the command that shows the stack, the texts that expressions add are the text that the
expressions add when they are joined by it, and the same flag is left. -/
theorem intercalate_additions (expression : Text) (rest : List Text) :
    "d ".toList.intercalate (c.additions (expression :: rest)) =
        c.addition ([Pending.displayCommand].intercalate (expression :: rest)) ∧
      (c.addAll (expression :: rest)).pending =
        (c.add ([Pending.displayCommand].intercalate (expression :: rest))).pending := by
  induction rest generalizing c expression with
  | nil => simp [additions, addAll]
  | cons next rest ih =>
      obtain ⟨htexts, hpending⟩ := ih (c.add expression) next
      have hjoin : [Pending.displayCommand].intercalate (expression :: next :: rest) =
          expression ++ Pending.displayCommand ::
            [Pending.displayCommand].intercalate (next :: rest) := by
        rw [List.intercalate_cons_cons, List.append_assoc]
        rfl
      obtain ⟨haddition, hlast⟩ := c.add_append_displayCommand expression
        ([Pending.displayCommand].intercalate (next :: rest))
      rw [hjoin, haddition, hlast, ← htexts, ← hpending]
      exact ⟨List.intercalate_cons_cons, rfl⟩

/-- The flag that earlier expressions have left does not matter to an expression unless its first
operator is a minus in the place of a sign. -/
theorem addition_eq_convert (hc : c.pending.operators = []) {expression : Text}
    (h : c.pending.negate = false ∨ Pending.signLeads none (pieces expression) = false) :
    c.addition expression = convert expression := by
  rw [addition_eq]
  obtain ⟨items, operators, negate⟩ := c
  obtain rfl : operators = [] := hc
  cases negate with
  | false => rfl
  | true => exact Pending.output_raised (h.resolve_left (by simp))

theorem operators_pending_addAll (hc : c.pending.operators = []) (expressions : List Text) :
    (c.addAll expressions).pending.operators = [] := by
  induction expressions generalizing c with
  | nil => exact hc
  | cons expression rest ih => exact ih (c.add expression) (c.operators_pending_add expression)

/-- One converter for several expressions leaves no operator waiting after any of them, and it only
ever adds to its text. The texts that it adds, joined by the command that shows the stack, are the
converted form of the expressions joined by that command, and the flag that it leaves in the end is
the same. The text that is added for an expression is the converted form of that expression alone
where no flag is left from before, and also where the first operator of the expression is no minus in
the place of a sign. -/
theorem reuse_addAll (expressions : List Text) :
    (∀ before expression later, expressions = before ++ expression :: later →
      (empty.addAll (before ++ [expression])).pending.operators = [] ∧
      (empty.addAll (before ++ [expression])).text =
        (empty.addAll before).text ++ (empty.addAll before).addition expression ∧
      ((empty.addAll before).pending.negate = false ∨
          Pending.signLeads none (pieces expression) = false →
        (empty.addAll before).addition expression = convert expression)) ∧
    "d ".toList.intercalate (empty.additions expressions) = convert (['d'].intercalate expressions) ∧
    (empty.addAll expressions).pending.negate =
      (empty.add (['d'].intercalate expressions)).pending.negate := by
  refine ⟨?_, ?_⟩
  · intro before expression later _
    have hbefore := operators_pending_addAll empty rfl before
    have hnext : empty.addAll (before ++ [expression]) = (empty.addAll before).add expression :=
      List.foldl_append
    rw [hnext, text_add, addition_eq]
    exact ⟨operators_pending_add _ expression, rfl,
      fun h => addition_eq (empty.addAll before) expression ▸ addition_eq_convert _ hbefore h⟩
  · cases expressions with
    | nil => exact ⟨rfl, rfl⟩
    | cons expression rest =>
        obtain ⟨htexts, hpending⟩ := empty.intercalate_additions expression rest
        exact ⟨htexts.trans (addition_eq_convert empty rfl (.inl rfl)), congrArg _ hpending⟩

/-- The expression `1+-` leaves the flag raised, and `2-3` is converted all the same. -/
theorem reuse_addAll_of_raised :
    (empty.addAll ["1+-".toList]).pending = ⟨[], true⟩ ∧
      (empty.addAll ["1+-".toList]).addition "2-3".toList = convert "2-3".toList ∧
      "d ".toList.intercalate (empty.additions ["1+-".toList, "2-3".toList]) =
        "1 + - d 2 3 - ".toList :=
  ⟨by decide,
    ((reuse_addAll ["1+-".toList, "2-3".toList]).1 ["1+-".toList] _ [] rfl).2.2 (.inr (by decide)),
    (reuse_addAll ["1+-".toList, "2-3".toList]).2.1.trans (by decide)⟩

/-- A minus in the place of a sign takes the flag that is left for the first of two minuses. -/
example : (empty.addAll ["1+-".toList]).addition "-3".toList = "3 - ".toList := by decide

end Converter

end RpnCalculator
