import FilterLang.Binding.Machine
import FilterLang.Table.Basic

/-!
# Binding to a table

On a table a field is located at the first column of its name, and the usual operators make
conditions.  A comparison takes cells and constants; "and" and "or" take predicates, fields and truth
values, of which the last two hold where they are `true`.
-/

namespace FilterLang

/-- An operand of an operator on tables. -/
abbrev TableOperand := Bound Column Condition

/-- The operand as a side of a comparison. -/
def Bound.term? : TableOperand → Option Term
  | literal value => some (.constant value.toValue)
  | location column => some (.column column)
  | predicate _ => none

/-- The operand as a condition. -/
def Bound.condition? : TableOperand → Option Condition
  | predicate condition => some condition
  | location column => some (.isTrue (.column column))
  | literal (.boolean value) => some (.isTrue (.constant (.boolean value)))
  | literal _ => none

namespace Table

/-! ## The meanings of the operators -/

/-- A meaning that takes both operands in the same way and is invalid if one of them cannot be taken
so; the operator is reported under the name given. -/
def combine {α : Type} (operator : String) (take? : TableOperand → Option α)
    (make : α → α → Condition) : Meaning Id Column Condition := fun left right =>
  match take? left, take? right with
  | some l, some r => pure (make l r)
  | _, _ => throw (.invalidOperands operator left.type right.type)

/-- What the usual operators mean on tables. -/
def connectives : Connectives Id Column Condition where
  equal := combine "=" Bound.term? .equal
  and := combine "and" Bound.condition? .and
  or := combine "or" Bound.condition? .or

/-- The usual operators on tables. -/
def vocabulary : Vocabulary Id Column Condition :=
  .standard connectives

/-! ## Fields and trees -/

/-- The first column of the name. -/
def locate (t : Table) : Locate Id Column := fun name =>
  match t.indexOf? name with
  | some index => pure ⟨index, name⟩
  | none => throw (.unknownField name)

/-- The condition a tree stands for on the table. -/
def bind {ρ : Type} (t : Table) (vocabulary : Vocabulary Id Column Condition) (tree : Tree ρ) :
    Except Halt Condition :=
  (tree.bind t.locate vocabulary).run.run

end Table

end FilterLang
