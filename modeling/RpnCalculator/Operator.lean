import RpnCalculator.Text.Basic

/-!
# Operators

The six binary operators, their symbols, and their precedence: from the loosest to the tightest
they are subtraction, addition, multiplication, division, remainder and power, all different.
-/

namespace RpnCalculator

/-- A binary operator. A remainder has the sign of the left operand. -/
inductive Operator where
  | sub
  | add
  | mul
  | div
  | mod
  | pow
deriving DecidableEq, Repr

namespace Operator

/-- How tightly an operator binds; a greater number binds tighter. -/
def precedence : Operator → Nat
  | sub => 0
  | add => 1
  | mul => 2
  | div => 3
  | mod => 4
  | pow => 5

/-- The character that writes an operator. -/
def symbol : Operator → Char
  | sub => '-'
  | add => '+'
  | mul => '*'
  | div => '/'
  | mod => '%'
  | pow => '^'

/-- The operator that a character writes. -/
def ofSymbol? : Char → Option Operator
  | '-' => some sub
  | '+' => some add
  | '*' => some mul
  | '/' => some div
  | '%' => some mod
  | '^' => some pow
  | _ => none

/-- The operator that a text of one character writes. -/
def ofText? : Text → Option Operator
  | [c] => ofSymbol? c
  | _ => none

@[simp] theorem ofSymbol?_symbol (o : Operator) : ofSymbol? o.symbol = some o := by
  cases o <;> rfl

theorem ofSymbol?_eq_some_iff {c : Char} {o : Operator} : ofSymbol? c = some o ↔ c = o.symbol := by
  constructor
  · intro h
    unfold ofSymbol? at h
    split at h <;> cases h <;> rfl
  · rintro rfl
    exact ofSymbol?_symbol o

theorem ofText?_eq_some_iff {text : Text} {o : Operator} :
    ofText? text = some o ↔ text = [o.symbol] := by
  match text with
  | [] => simp [ofText?]
  | [c] => simp [ofText?, ofSymbol?_eq_some_iff]
  | _ :: _ :: _ => simp [ofText?]

theorem symbol_injective {o p : Operator} (h : o.symbol = p.symbol) : o = p := by
  have hsome : some o = some p := by rw [← ofSymbol?_symbol o, h, ofSymbol?_symbol]
  exact Option.some.inj hsome

end Operator

end RpnCalculator
