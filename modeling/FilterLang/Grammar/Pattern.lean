import FilterLang.Expr.Error
import FilterLang.Expr.Tree
import FilterLang.Text.Alphanumeric
import FilterLang.Text.Blank

/-!
# Patterns

A pattern describes one kind of unit, and `Pattern.read?` reads a whole text as that unit.  A text can
have the form of a unit and still be unusable, as an integer that does not fit 64 bits: it is read,
but what is read is an error.
-/

namespace FilterLang

open Text

/-- One kind of unit of an expression. -/
inductive Pattern (ρ : Type) where
  /-- ASCII digits with nothing around them -/
  | integer
  /-- `true` or `false` with nothing around it -/
  | boolean
  /-- Text between two quotes, which holds no quote itself -/
  | string (quote : Char)
  /-- A name in braces -/
  | field
  /-- The token of an operator -/
  | operator (op : Operator ρ)
deriving DecidableEq

namespace Pattern

variable {ρ : Type}

/-- What may stand in the name of a field. -/
def isNameChar (c : Char) : Bool :=
  isAlphanumeric c || c == '_'

/-! ## Reading -/

/-- Digits as an integer that must be below `2 ^ 63`. -/
def readInteger? (cs : List Char) : Option (Except ExprError Operand) :=
  if isDigitRun cs then
    let text := String.ofList cs
    let n := digitsValue cs
    some (if n < Nat.pow 2 63 then .ok (.literal text (.integer (Int64.ofNat n)))
      else .error (.integerOverflow text))
  else none

/-- One of the two truth values. -/
def readBoolean? (cs : List Char) : Option Operand :=
  let text := String.ofList cs
  if text = "true" then some (.literal text (.boolean true))
  else if text = "false" then some (.literal text (.boolean false))
  else none

/-- A quoted text with blanks around it. -/
def readString? (quote : Char) (cs : List Char) : Option Operand := do
  let inner ← between? quote quote (trim cs)
  if quote ∈ inner then none
  else some (.literal (String.ofList (trim cs)) (.string (String.ofList inner)))

/-- A name in braces with blanks around them. -/
def readField? (cs : List Char) : Option Operand := do
  let name ← between? '{' '}' (trim cs)
  if name ≠ [] ∧ name.all isNameChar then some (.field (String.ofList name)) else none

/-- Reads a whole text as the unit the pattern describes. -/
def read? (p : Pattern ρ) (cs : List Char) : Option (Except ExprError (Lexeme ρ)) :=
  match p with
  | integer => (readInteger? cs).map fun r => r.map .operand
  | boolean => (readBoolean? cs).map fun x => .ok (.operand x)
  | string quote => (readString? quote cs).map fun x => .ok (.operand x)
  | field => (readField? cs).map fun x => .ok (.operand x)
  | operator op => if String.ofList (trim cs) = op.token then some (.ok (.operator op)) else none

end Pattern

end FilterLang
