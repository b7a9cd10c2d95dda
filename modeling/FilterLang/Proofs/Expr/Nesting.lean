import FilterLang.Binding.Machine
import FilterLang.Proofs.Expr.Regular

/-!
# How deep trees are

On the way from the root to a leaf every node but the last is an operator, so a tree is at most one node
deeper than it has operators (`Tree.depth_le`).  Merging a unit adds an operator only if the unit is one
(`Tree.length_operators_add`).

The functions on trees are recursions, which call themselves on the two sides of an operator.
`Recursion.within` does not allow more than a number of calls to be nested in each other, and what a tree
needs of them is its depth (`Recursion.within_eq`).  Recursions in this sense are showing a tree, merging a
unit and walking a tree to bind it.
-/

namespace FilterLang

variable {ρ α : Type}

/-! ## Depth -/

namespace Tree

/-- The most nodes that lie on a way from the root to a leaf; a missing operand is no node. -/
def depth : Tree ρ → Nat
  | hole => 0
  | leaf _ => 1
  | node _ left right => max left.depth right.depth + 1

theorem depth_le (t : Tree ρ) : t.depth ≤ t.operators.length + 1 := by
  induction t with
  | hole => exact Nat.zero_le _
  | leaf _ => exact Nat.le_refl _
  | node op left right ihleft ihright =>
    have hcount : (node op left right).operators.length =
        left.operators.length + right.operators.length + 1 := by
      simp only [operators, List.length_append, List.length_cons]
      omega
    rw [hcount, depth]
    omega

variable [Reducer ρ]

/-- Merging can make operators disappear, and adds none but the unit itself. -/
theorem length_operators_add {t u : Tree ρ} {v : Lexeme ρ} (h : t.add v = .ok u) :
    u.operators.length ≤ t.operators.length + (if v.isOperator then 1 else 0) := by
  cases v with
  | operand x => exact (operators_addOperand h).length_le
  | operator op =>
    rw [(units_addOperator h).2, List.length_append]
    exact Nat.le_refl _

end Tree

/-! ## Recursions -/

/-- A recursion over trees.  At an operator it gives a result for the operator, its two sides and what it
gave for them. -/
structure Recursion (ρ α : Type) where
  hole : α
  leaf : Operand → α
  node : Operator ρ → Tree ρ → Tree ρ → α → α → α

namespace Recursion

/-- What the recursion gives for a tree. -/
def run (r : Recursion ρ α) : Tree ρ → α
  | .hole => r.hole
  | .leaf x => r.leaf x
  | .node op left right => r.node op left right (r.run left) (r.run right)

/-- What the recursion gives if no more than `limit` calls may be nested in each other; a missing operand
needs no call. -/
def within (r : Recursion ρ α) : (limit : Nat) → Tree ρ → Option α
  | _, .hole => some r.hole
  | 0, .leaf _ => none
  | 0, .node _ _ _ => none
  | _ + 1, .leaf x => some (r.leaf x)
  | limit + 1, .node op left right => do
    let l ← r.within limit left
    let r' ← r.within limit right
    return r.node op left right l r'

/-- The depth of a tree is the number of nested calls that every recursion needs for it. -/
theorem within_eq (r : Recursion ρ α) (limit : Nat) (t : Tree ρ) :
    r.within limit t = if t.depth ≤ limit then some (r.run t) else none := by
  induction t generalizing limit with
  | hole => simp [within, run, Tree.depth]
  | leaf x => cases limit <;> simp [within, run, Tree.depth]
  | node op left right ihleft ihright =>
    cases limit with
    | zero => simp [within, Tree.depth]
    | succ limit =>
      simp only [within, ihleft, ihright, Tree.depth, Nat.add_le_add_iff_right, Nat.max_le, run]
      by_cases hleft : left.depth ≤ limit
      · by_cases hright : right.depth ≤ limit <;> simp [hleft, hright]
      · simp [hleft]

theorem within_of_depth_le (r : Recursion ρ α) {limit : Nat} {t : Tree ρ} (h : t.depth ≤ limit) :
    r.within limit t = some (r.run t) := by
  rw [within_eq, if_pos h]

end Recursion

namespace Tree

/-! ## Showing a tree -/

/-- Writes the canonical form. -/
def showing : Recursion ρ (List Char) where
  hole := ['n', 'u', 'l', 'l']
  leaf x := '[' :: (x.text.toList ++ [']'])
  node op _ _ left right := '[' :: (left ++ (op.token.toList ++ (right ++ [']'])))

theorem run_showing (t : Tree ρ) : showing.run t = t.chars := by
  induction t with
  | hole => rfl
  | leaf _ => rfl
  | node op left right ihleft ihright =>
    rw [Recursion.run, ihleft, ihright]
    rfl

/-! ## Merging a unit -/

section Merging

variable [Reducer ρ]

/-- Asks whether an operand is awaited, and puts one in.  At an operator the answer for its right side
decides whether the operand goes there, so the two go together. -/
def addingOperand (x : Operand) : Recursion ρ (Bool × Except ExprError (Tree ρ)) where
  hole := (true, .ok (leaf x))
  leaf _ := (false, .error (.strayOperand x.text))
  node op left right _ below :=
    (left.isHole || below.1,
      if left.isHole then settle op (leaf x) right
      else if below.1 then do settle op left (← below.2)
      else .error (.strayOperand x.text))

theorem run_addingOperand (x : Operand) (t : Tree ρ) :
    (addingOperand x).run t = (t.pending, addOperand x t) := by
  induction t with
  | hole => rfl
  | leaf _ => rfl
  | node op left right _ ihright =>
    rw [Recursion.run, ihright]
    rfl

/-- Puts an operator in.  At a leaf one more call remains, which puts the operand of the leaf into the
operator. -/
def addingOperator (op : Operator ρ) : Recursion ρ (Except ExprError (Tree ρ)) where
  hole := .ok (node op hole hole)
  leaf x := addOperand x (node op hole hole)
  node top left right _ below :=
    if top.weight < op.weight then do return node top left (← below)
    else .ok (node op (node top left right) hole)

theorem run_addingOperator (op : Operator ρ) (t : Tree ρ) :
    (addingOperator op).run t = addOperator op hole hole t := by
  induction t with
  | hole => rfl
  | leaf _ => rfl
  | node top left right _ ihright =>
    rw [Recursion.run, ihright]
    rfl

end Merging

/-! ## Walking a tree -/

section Walking

variable {m : Type → Type} [Monad m] {π φ : Type}

/-- Walks a tree from any stack. -/
def walking (locate : Locate m π) (vocabulary : Vocabulary m π φ) :
    Recursion ρ (List (Bound π φ) → ExceptT Halt m (List (Bound π φ))) where
  hole _ := throw (.refused .empty)
  leaf x := walk locate vocabulary (leaf x : Tree ρ)
  node op left right walkLeft walkRight stack := do
    let meaning ← meaningOf vocabulary op left right
    let stack ← walkLeft stack
    let stack ← walkRight stack
    match stack with
    | r :: l :: stack =>
      let predicate ← ask (meaning l r)
      return .predicate predicate :: stack
    | _ => throw .stackEmpty

theorem run_walking (locate : Locate m π) (vocabulary : Vocabulary m π φ) (t : Tree ρ) :
    (walking locate vocabulary).run t = walk locate vocabulary t := by
  induction t with
  | hole =>
    funext stack
    rfl
  | leaf _ => rfl
  | node op left right ihleft ihright =>
    rw [Recursion.run, ihleft, ihright]
    funext stack
    rfl

end Walking

end Tree

end FilterLang
