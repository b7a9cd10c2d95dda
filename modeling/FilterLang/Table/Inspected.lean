import FilterLang.Table.Binding
import FilterLang.Text.Inspected

/-!
# Operands and vocabularies for inspection

The text that shows an operand on a table, or the tokens of a vocabulary, down to the last detail.
-/

namespace FilterLang

open Text (inspect)

/-- A name with its argument in parentheses. -/
def inspectApplied (name : String) (arguments : List String) : String :=
  name ++ "(" ++ ", ".intercalate arguments ++ ")"

/-- The text for a constant. -/
def Literal.inspected : Literal → String
  | integer value => inspectApplied "Integer" [toString value.toInt]
  | decimal value => inspectApplied "Decimal" [toString value]
  | string value => inspectApplied "String" [inspect value]
  | boolean value => inspectApplied "Boolean" [toString value]

/-- The text for the content of a cell. -/
def Value.inspected : Value → String
  | null => "Null"
  | boolean value => Literal.inspected (.boolean value)
  | integer value => Literal.inspected (.integer value)
  | decimal value => Literal.inspected (.decimal value)
  | string value => Literal.inspected (.string value)

/-- The text for a column. -/
def Column.inspected (c : Column) : String :=
  "ColumnRef \x7b index: " ++ toString c.index ++ ", name: " ++ inspect c.name ++ " \x7d"

/-- The text for a term. -/
def Term.inspected : Term → String
  | column c => inspectApplied "Column" [c.inspected]
  | constant v => inspectApplied "Constant" [v.inspected]

/-- The text for a condition. -/
def Condition.inspected : Condition → String
  | equal left right => inspectApplied "Equal" [left.inspected, right.inspected]
  | isTrue term => inspectApplied "IsTrue" [term.inspected]
  | and left right => inspectApplied "And" [left.inspected, right.inspected]
  | or left right => inspectApplied "Or" [left.inspected, right.inspected]

/-- The text for an operand on a table. -/
def Bound.inspected : TableOperand → String
  | literal value => inspectApplied "Literal" [value.inspected]
  | location column => inspectApplied "Path" [column.inspected]
  | predicate condition => inspectApplied "Predicate" [condition.inspected]

/-- The text for a vocabulary: its tokens in ascending order. -/
def Vocabulary.inspected {m : Type → Type} {π φ : Type} (v : Vocabulary m π φ) : String :=
  "MapperRegistry \x7b tokens: [" ++ ", ".intercalate (v.keys.map inspect) ++ "] \x7d"

/-- Whether two operands on tables are the same, decimals being compared as numbers. -/
def Bound.same : TableOperand → TableOperand → Bool
  | literal a, literal b => a.toValue.same b.toValue
  | location a, location b => a == b
  | predicate a, predicate b => a.same b
  | _, _ => false

end FilterLang
