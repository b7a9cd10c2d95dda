import FilterLang.Expr.Operand

/-!
# Why an expression is refused

The causes that can keep an expression from becoming a predicate, from its text to its binding, and
the message for each.
-/

namespace FilterLang

/-- A side of an operator. -/
inductive Side where
  | left
  | right
deriving DecidableEq

/-- The word messages use for a side. -/
def Side.name : Side → String
  | left => "left"
  | right => "right"

/-- Why an expression is refused. -/
inductive ExprError where
  /-- No pattern of the grammar matches this piece of the text -/
  | unmatched (text : String)
  /-- The digits stand for no 64-bit integer -/
  | integerOverflow (text : String)
  /-- There is nothing but blanks -/
  | empty
  /-- No operator is left that could take the operand -/
  | strayOperand (text : String)
  /-- There are more operators than an expression may hold -/
  | tooManyOperators (limit : Nat)
  /-- No rule of the operator reduces its two operands to one -/
  | irreducible (operator left right : String)
  /-- The operator lacks an operand -/
  | missingOperand (operator : String) (side : Side)
  /-- The vocabulary gives the operator no meaning -/
  | unknownOperator (operator : String)
  /-- There is no such field -/
  | unknownField (name : String)
  /-- The operator does not apply to operands of these types -/
  | invalidOperands (operator : String) (left right : OperandType)
  /-- The whole expression stands for something that is no predicate -/
  | notPredicate (found : OperandType)
deriving DecidableEq

/-- The message for a refusal. -/
def ExprError.message : ExprError → String
  | unmatched text => "No symbol matches '" ++ text ++ "'"
  | integerOverflow text => "Integer literal '" ++ text ++ "' is out of range"
  | empty => "Expression is empty"
  | strayOperand text => "Operand '" ++ text ++ "' has no operator to bind to"
  | tooManyOperators limit => "Expression has more than " ++ toString limit ++ " operators"
  | irreducible operator left right =>
    "No factory of operator '" ++ operator ++ "' accepts '" ++ left ++ "' and '" ++ right ++ "'"
  | missingOperand operator side =>
    "Operator '" ++ operator ++ "' is missing its " ++ side.name ++ " operand"
  | unknownOperator operator => "No mapper registered for operator '" ++ operator ++ "'"
  | unknownField name => "Unknown field: " ++ name
  | invalidOperands operator left right =>
    "Invalid operands for operator " ++ operator ++ ": left=" ++ left.name ++ ", right=" ++ right.name
  | notPredicate found => "Expression evaluates to a " ++ found.name ++ ", not a predicate"

end FilterLang
