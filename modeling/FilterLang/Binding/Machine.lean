import FilterLang.Binding.Vocabulary
import FilterLang.Expr.Tree

/-!
# Binding with a stack

A tree is walked from its leaves to its root.  A leaf pushes what it is bound to; an operator, once
both of its sides have been walked, pops two operands and pushes the predicate made of them.  What is
left in the end is the predicate of the whole tree.

An operator is checked before its sides are walked: an operator that should have been reduced, one
without a meaning, a missing left and a missing right operand are found in this order.
-/

namespace FilterLang

/-- Why binding stops before its end. -/
inductive Halt where
  /-- The expression is refused -/
  | refused (cause : ExprError)
  /-- An operand was to be popped and there was none -/
  | stackEmpty
  /-- Operands were left over in the end -/
  | stackLeft
deriving DecidableEq

/-- The message for a stop. -/
def Halt.message : Halt → String
  | refused cause => cause.message
  | stackEmpty => "Evaluation stack is empty"
  | stackLeft => "Evaluation stack is not drained"

variable {m : Type → Type} [Monad m] {π φ ρ : Type}

/-- Asks the store; if it refuses, the expression is refused. -/
def ask {α : Type} (x : ExceptT ExprError m α) : ExceptT Halt m α :=
  x.adapt .refused

namespace Tree

/-- Stops at an operator that lacks an operand. -/
def lacks {α : Type} (op : Operator ρ) (side : Side) : ExceptT Halt m α :=
  throw (.refused (.missingOperand op.token side))

/-- Finds the meaning of an operator that is ready to be bound. -/
def meaningOf (vocabulary : Vocabulary m π φ) (op : Operator ρ) (left right : Tree ρ) :
    ExceptT Halt m (Meaning m π φ) :=
  match op.kind with
  | .transform _ => lacks op (if left.isHole then .left else .right)
  | .binary =>
    match vocabulary.get? op.token with
    | none => throw (.refused (.unknownOperator op.token))
    | some meaning =>
      if left.isHole then lacks op .left
      else if right.isHole then lacks op .right
      else pure meaning

/-- Walks a tree and gives the stack it leaves. -/
def walk (locate : Locate m π) (vocabulary : Vocabulary m π φ) :
    Tree ρ → List (Bound π φ) → ExceptT Halt m (List (Bound π φ))
  | hole, _ => throw (.refused .empty)
  | leaf (.literal _ value), stack => pure (.literal value :: stack)
  | leaf (.field reference), stack => do
    let path ← ask (locate reference)
    return .location path :: stack
  | node op left right, stack => do
    let meaning ← meaningOf vocabulary op left right
    let stack ← walk locate vocabulary left stack
    let stack ← walk locate vocabulary right stack
    match stack with
    | r :: l :: stack =>
      let predicate ← ask (meaning l r)
      return .predicate predicate :: stack
    | _ => throw .stackEmpty

/-- The predicate of a whole tree. -/
def bind (locate : Locate m π) (vocabulary : Vocabulary m π φ) (t : Tree ρ) : ExceptT Halt m φ := do
  match ← walk locate vocabulary t [] with
  | [] => throw .stackEmpty
  | [.predicate predicate] => return predicate
  | [other] => throw (.refused (.notPredicate other.type))
  | _ => throw .stackLeft

end Tree

end FilterLang
