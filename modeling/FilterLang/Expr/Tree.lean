import FilterLang.Expr.Operand

/-!
# Expression trees

An expression is a tree of infix operators over operands.  While it is read, operands can still be
missing: a `hole` stands where one is awaited, and the tree of nothing at all is a hole too.  The
canonical form `Tree.chars` brackets every node, so that the shape of the tree can be read off it.

The parameter `ρ` names the rules by which a transforming operator reduces its two operands to one;
`Reducer` says what each rule does.
-/

namespace FilterLang

/-! ## Nodes -/

/-- What becomes of an operator once it has both operands. -/
inductive OperatorKind (ρ : Type) where
  /-- It stays in the tree -/
  | binary
  /-- It gives way to the operand that the first applicable rule makes of its two -/
  | transform (rules : List ρ)
deriving DecidableEq

/-- An infix operator; of two, the one with more weight binds tighter. -/
structure Operator (ρ : Type) where
  token : String
  weight : UInt32
  kind : OperatorKind ρ
deriving DecidableEq

/-- The smallest unit of an expression: an operand, or an operator that has no operands yet. -/
inductive Lexeme (ρ : Type) where
  | operand (x : Operand)
  | operator (op : Operator ρ)
deriving DecidableEq

/-- A tree of operators over operands, in which operands may be missing. -/
inductive Tree (ρ : Type) where
  | hole
  | leaf (x : Operand)
  | node (op : Operator ρ) (left right : Tree ρ)
deriving DecidableEq

/-- The two operands of an operator made into one, by a rule that may not apply to them. -/
class Reducer (ρ : Type) where
  reduce : ρ → Tree ρ → Tree ρ → Option Operand

variable {ρ : Type}

/-- Whether the unit is an operator. -/
def Lexeme.isOperator : Lexeme ρ → Bool
  | operand _ => false
  | operator _ => true

/-- The tree that consists of one unit: an operator comes with two holes. -/
def Lexeme.tree : Lexeme ρ → Tree ρ
  | operand x => .leaf x
  | operator op => .node op .hole .hole

namespace Tree

/-! ## Shape -/

/-- Whether an operand is missing here. -/
def isHole : Tree ρ → Bool
  | hole => true
  | leaf _ => false
  | node _ _ _ => false

/-- Whether the tree can take an operand: some operator on its right spine lacks one. -/
def pending : Tree ρ → Bool
  | hole => true
  | leaf _ => false
  | node _ left right => left.isHole || right.pending

/-- What messages show for a tree: an operand as it is written, an operator by its token alone. -/
def label : Tree ρ → String
  | hole => ""
  | leaf x => x.text
  | node op _ _ => op.token

@[simp] theorem isHole_iff {t : Tree ρ} : t.isHole = true ↔ t = hole := by
  cases t <;> simp [isHole]

/-! ## Canonical form -/

/-- The bracketed form: `[left op right]` without the blanks for an operator, `[text]` for an operand
and `null` where an operand is missing. -/
def chars : Tree ρ → List Char
  | hole => ['n', 'u', 'l', 'l']
  | leaf x => '[' :: (x.text.toList ++ [']'])
  | node op left right => '[' :: (left.chars ++ (op.token.toList ++ (right.chars ++ [']'])))

instance : ToString (Tree ρ) where
  toString t := String.ofList t.chars

end Tree

end FilterLang
