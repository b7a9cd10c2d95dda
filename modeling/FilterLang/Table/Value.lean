import FilterLang.Expr.Operand
import FilterLang.Json.Document

/-!
# Cells

A cell of a table is empty or holds one constant.  Two comparisons matter: `Value.agrees` is the
equality of filters, for which an empty cell equals nothing and an integer may equal a decimal;
`Value.same` tells values of different kinds apart and compares decimals as numbers.
-/

namespace FilterLang

/-- The content of a cell. -/
inductive Value where
  | null
  | boolean (value : Bool)
  | integer (value : Int64)
  | decimal (value : Decimal)
  | string (value : String)
deriving DecidableEq

/-- The cell that holds a constant. -/
def Literal.toValue : Literal → Value
  | integer value => .integer value
  | decimal value => .decimal value
  | string value => .string value
  | boolean value => .boolean value

namespace Value

/-! ## Comparing -/

/-- Whether two values have the same kind and content, decimals being compared as numbers. -/
def same : Value → Value → Bool
  | null, null => true
  | boolean a, boolean b => a == b
  | integer a, integer b => a == b
  | decimal a, decimal b => a.sameNumber b
  | string a, string b => a == b
  | _, _ => false

/-- Equality as a filter sees it. -/
def agrees : Value → Value → Bool
  | null, _ => false
  | _, null => false
  | integer a, decimal b => (Decimal.ofInt64 a).sameNumber b
  | decimal a, integer b => a.sameNumber (.ofInt64 b)
  | a, b => a.same b

theorem same_comm (a b : Value) : a.same b = b.same a := by
  cases a <;> cases b <;> simp [same, Decimal.sameNumber_comm, Bool.beq_comm]

theorem agrees_comm (a b : Value) : a.agrees b = b.agrees a := by
  cases a <;> cases b <;> simp [agrees, same_comm, Decimal.sameNumber_comm]

/-- A value equals itself unless it is missing. -/
theorem agrees_self {a : Value} : a.agrees a = true ↔ a ≠ null := by
  cases a <;> simp [agrees, same, Decimal.sameNumber_refl]

/-! ## From and to JSON -/

/-- Why a JSON value cannot be the content of a cell. -/
inductive Refusal where
  /-- Lists and objects are no cells -/
  | unsupported (value : Json)
  /-- The number has no decimal -/
  | decimal (number : Json.Number)

/-- The message for a refusal. -/
def Refusal.message : Refusal → String
  | unsupported value => "Unsupported value: " ++ toString value
  | decimal number => "Invalid decimal: " ++ String.ofList number.toChars

/-- The decimal that is written like the number. -/
def decimalOfNumber (number : Json.Number) : Except Refusal Value :=
  match Decimal.ofText? number.toChars with
  | some d => .ok (decimal d)
  | none => .error (.decimal number)

/-- A number as a cell: an integer of 64 bits where it is one, and a decimal otherwise. -/
def ofNumber (number : Json.Number) : Except Refusal Value :=
  match number with
  | .integer value =>
    if -Nat.pow 2 63 ≤ value ∧ value < Nat.pow 2 63 then .ok (integer (.ofInt value))
    else decimalOfNumber number
  | .double _ _ => decimalOfNumber number

/-- A JSON value as a cell. -/
def ofJson : Json → Except Refusal Value
  | .null => .ok null
  | .boolean value => .ok (boolean value)
  | .number value => ofNumber value
  | .string value => .ok (string value)
  | other => .error (.unsupported other)

/-- A cell as a JSON value.  A decimal is written out and read as a number of JSON; were that to fail,
it would be a string. -/
def toJson : Value → Json
  | null => .null
  | boolean value => .boolean value
  | integer value => .number (.integer value.toInt)
  | decimal value =>
    match Json.Number.ofText? value.toChars with
    | some number => .number number
    | none => .string (toString value)
  | string value => .string value

end Value

end FilterLang
