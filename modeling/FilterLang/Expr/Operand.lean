import FilterLang.Number.Decimal

/-!
# Operands

What stands at the leaves of an expression: constants and names of fields.  Each keeps the text it was
written as, because the canonical form of an expression and its error messages show that text.
-/

namespace FilterLang

/-! ## Constants -/

/-- The value of a constant. -/
inductive Literal where
  | integer (value : Int64)
  | decimal (value : Decimal)
  | string (value : String)
  | boolean (value : Bool)
deriving DecidableEq

/-- What an operand can turn out to be when the expression is bound. -/
inductive OperandType where
  | integer
  | decimal
  | string
  | boolean
  | field
  | predicate
deriving DecidableEq

/-- The name messages use for a type of operand. -/
def OperandType.name : OperandType → String
  | integer => "integer"
  | decimal => "decimal"
  | string => "string"
  | boolean => "boolean"
  | field => "field"
  | predicate => "predicate"

/-- The type of a constant. -/
def Literal.type : Literal → OperandType
  | integer _ => .integer
  | decimal _ => .decimal
  | string _ => .string
  | boolean _ => .boolean

/-! ## Leaves -/

/-- The name of a field with the text it was written as. -/
structure Reference where
  name : String
  text : String
deriving DecidableEq

/-- The name in braces. -/
def Reference.braced (name : String) : Reference where
  name
  text := "\x7b" ++ name ++ "\x7d"

@[simp] theorem Reference.text_braced (name : String) :
    (braced name).text = "\x7b" ++ name ++ "\x7d" := rfl

/-- A name alone stands for the reference that is written with it. -/
instance : Coe String Reference := ⟨Reference.braced⟩

/-- Where a name is needed, the text does not matter. -/
instance : Coe Reference String := ⟨Reference.name⟩

/-- A leaf of an expression. -/
inductive Operand where
  /-- A constant with the text it was written as -/
  | literal (text : String) (value : Literal)
  /-- The value of a field -/
  | field (reference : Reference)
deriving DecidableEq

/-- How the operand is written. -/
def Operand.text : Operand → String
  | literal text _ => text
  | field reference => reference.text

end FilterLang
