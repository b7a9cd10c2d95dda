import FilterLang.Table.Value

/-!
# Conditions on rows

The predicates that expressions are bound to on a table: comparisons of cells and constants, joined by
"and" and "or".
-/

namespace FilterLang

/-- A column by its position, with the name it was found under. -/
structure Column where
  index : Nat
  name : String
deriving DecidableEq

/-- One side of a comparison. -/
inductive Term where
  | column (column : Column)
  | constant (value : Value)
deriving DecidableEq

/-- What a row may fulfil. -/
inductive Condition where
  | equal (left right : Term)
  /-- The term is the truth value `true` -/
  | isTrue (term : Term)
  | and (left right : Condition)
  | or (left right : Condition)
deriving DecidableEq

/-- The value of a term on a row; past the end of the row there are only empty cells. -/
def Term.value (row : List Value) : Term → Value
  | column c => row[c.index]?.getD .null
  | constant v => v

/-- Whether two terms are the same, constants being compared by `Value.same`. -/
def Term.same : Term → Term → Bool
  | column a, column b => a == b
  | constant a, constant b => a.same b
  | _, _ => false

namespace Condition

/-- Whether the row fulfils the condition. -/
def holds (row : List Value) : Condition → Bool
  | equal left right => (left.value row).agrees (right.value row)
  | isTrue term => term.value row == .boolean true
  | and left right => left.holds row && right.holds row
  | or left right => left.holds row || right.holds row

/-- Whether two conditions have the same form and the same terms. -/
def same : Condition → Condition → Bool
  | equal a b, equal c d => a.same c && b.same d
  | isTrue a, isTrue b => a.same b
  | and a b, and c d => a.same c && b.same d
  | or a b, or c d => a.same c && b.same d
  | _, _ => false

end Condition

end FilterLang
