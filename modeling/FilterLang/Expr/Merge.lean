import FilterLang.Expr.Error
import FilterLang.Expr.Tree

/-!
# Building a tree from left to right

The units of an expression are merged into its tree in the order in which they are read, and no unit
is looked at twice.  An operand fills the first hole on the right spine.  An operator sinks into the
right side of every operator that weighs less and takes what it meets there as its left side, so
that equal weights associate to the left.  A transforming operator that has got both operands is
reduced to one at once.
-/

namespace FilterLang.Tree

variable {ρ : Type} [Reducer ρ]

/-! ## Reduction -/

/-- An operator over its two sides; a transforming one with both sides there is reduced by the first of
its rules that applies. -/
def settle (op : Operator ρ) (left right : Tree ρ) : Except ExprError (Tree ρ) :=
  match op.kind with
  | .binary => .ok (node op left right)
  | .transform rules =>
    if left.isHole || right.isHole then .ok (node op left right)
    else
      match rules.findSome? fun rule => Reducer.reduce rule left right with
      | some x => .ok (leaf x)
      | none => .error (.irreducible op.token left.label right.label)

theorem settle_binary {op : Operator ρ} (h : op.kind = .binary) (left right : Tree ρ) :
    settle op left right = .ok (node op left right) := by
  simp [settle, h]

/-! ## Merging -/

/-- Puts an operand into the first hole on the right spine; every operator above it may be complete
now. -/
def addOperand (x : Operand) : Tree ρ → Except ExprError (Tree ρ)
  | hole => .ok (leaf x)
  | leaf _ => .error (.strayOperand x.text)
  | node op left right =>
    if left.isHole then settle op (leaf x) right
    else if right.pending then do settle op left (← addOperand x right)
    else .error (.strayOperand x.text)

/-- Where no operand is awaited, none is taken. -/
theorem addOperand_of_not_pending {x : Operand} {t : Tree ρ} (h : t.pending = false) :
    addOperand x t = .error (.strayOperand x.text) := by
  cases t with
  | hole => simp [pending] at h
  | leaf _ => rfl
  | node op left right =>
    simp only [pending, Bool.or_eq_false_iff] at h
    simp [addOperand, h]

/-- Puts an operator where its weight belongs on the right spine: below the operators that weigh less,
above the first that does not.  What stands there becomes its left side; an operand is put in as if
it came after the operator. -/
def addOperator (op : Operator ρ) (left right : Tree ρ) : Tree ρ → Except ExprError (Tree ρ)
  | hole => .ok (node op left right)
  | leaf x => addOperand x (node op left right)
  | node top l r =>
    if top.weight < op.weight then do return node top l (← addOperator op left right r)
    else .ok (node op (node top l r) right)

/-- Merges a second tree into the first, which stands to the left of it. -/
def merge (t : Tree ρ) : Tree ρ → Except ExprError (Tree ρ)
  | hole => .ok t
  | leaf x => addOperand x t
  | node op left right => addOperator op left right t

/-- Merges the next unit of the expression. -/
def add (t : Tree ρ) (u : Lexeme ρ) : Except ExprError (Tree ρ) :=
  t.merge u.tree

/-- The tree of a whole sequence of units. -/
def ofLexemes (us : List (Lexeme ρ)) : Except ExprError (Tree ρ) :=
  us.foldlM add hole

/-- A sequence can be taken in by parts. -/
theorem ofLexemes_append (us vs : List (Lexeme ρ)) :
    ofLexemes (us ++ vs) = (ofLexemes us).bind fun t => vs.foldlM add t := by
  simp only [ofLexemes, List.foldlM_append]
  rfl

end FilterLang.Tree
