import FilterLang.Binding.Machine
import FilterLang.Proofs.Except

/-!
# Binding without a stack

What a tree is bound to can be said by recursion on the tree alone: `evaluate` gives the value of a
node and `predicateOf` the predicate of the whole tree.  The walk with a stack does the same.  From
any stack it leaves that stack with the value on top, or it is refused where the recursion is
(`walk_eq_evaluate`), so no operand is ever missing on the stack or left over on it in the end
(`bind_eq_predicateOf`).

Both are equations between computations in an arbitrary lawful monad, so the store sees the same
calls in the same order from both.
-/

namespace FilterLang

variable {m : Type → Type} [Monad m] {π φ ρ : Type}

/-! ## The evaluator -/

namespace Tree

/-- The meaning of an operator that passes all checks: it is none that should have been reduced, it has
a meaning, and its left and its right operand are there. -/
def check (vocabulary : Vocabulary m π φ) (op : Operator ρ) (left right : Tree ρ) :
    Except ExprError (Meaning m π φ) :=
  match op.kind, vocabulary.get? op.token with
  | .transform _, _ => .error (.missingOperand op.token (if left.isHole then .left else .right))
  | .binary, none => .error (.unknownOperator op.token)
  | .binary, some meaning =>
    if left.isHole then .error (.missingOperand op.token .left)
    else if right.isHole then .error (.missingOperand op.token .right)
    else .ok meaning

omit [Monad m] in
theorem check_eq_ok_iff {vocabulary : Vocabulary m π φ} {op : Operator ρ} {left right : Tree ρ}
    {meaning : Meaning m π φ} :
    check vocabulary op left right = .ok meaning ↔
      op.kind = .binary ∧ vocabulary.get? op.token = some meaning ∧
        left.isHole = false ∧ right.isHole = false := by
  unfold check
  cases op.kind with
  | transform rules => simp
  | binary =>
    cases vocabulary.get? op.token with
    | none => simp
    | some meaning' =>
      cases left.isHole with
      | true => simp
      | false => cases right.isHole <;> simp

/-- What a tree is bound to.  An operator is checked before anything below it is looked at; then come
its left side, its right side and the one call of its meaning. -/
def evaluate (locate : Locate m π) (vocabulary : Vocabulary m π φ) :
    Tree ρ → ExceptT ExprError m (Bound π φ)
  | hole => throw .empty
  | leaf (.literal _ value) => return .literal value
  | leaf (.field reference) => return .location (← locate reference)
  | node op left right => do
    let meaning ← MonadExcept.ofExcept (check vocabulary op left right)
    let l ← evaluate locate vocabulary left
    let r ← evaluate locate vocabulary right
    return .predicate (← meaning l r)

/-- The predicate of a whole tree, which anything but a predicate at the root is not. -/
def predicateOf (locate : Locate m π) (vocabulary : Vocabulary m π φ) (t : Tree ρ) :
    ExceptT ExprError m φ := do
  match ← evaluate locate vocabulary t with
  | .predicate predicate => return predicate
  | other => throw (.notPredicate other.type)

end Tree

/-! ## Asking the store -/

section Ask

variable {α β : Type}

@[simp] theorem ask_pure [LawfulMonad m] (a : α) : ask (pure a : ExceptT ExprError m α) = pure a := by
  apply ExceptT.ext
  simp [ask, ExceptT.run_adapt, mapError_ok]

@[simp] theorem ask_throw [LawfulMonad m] (e : ExprError) :
    ask (throw e : ExceptT ExprError m α) = throw (.refused e) := by
  apply ExceptT.ext
  simp [ask, ExceptT.run_adapt, mapError_error]

@[simp] theorem ask_bind [LawfulMonad m] (x : ExceptT ExprError m α)
    (f : α → ExceptT ExprError m β) : ask (x >>= f) = ask x >>= fun a => ask (f a) := by
  apply ExceptT.ext
  simp only [ask, ExceptT.run_adapt, ExceptT.run_bind, map_bind, bind_map_left]
  congr 1
  funext r
  cases r with
  | ok a => simp [mapError_ok]
  | error e => simp [mapError_error]

@[simp] theorem ask_map [LawfulMonad m] (f : α → β) (x : ExceptT ExprError m α) :
    ask (f <$> x) = f <$> ask x := by
  rw [map_eq_pure_bind, ask_bind, map_eq_pure_bind]
  simp

end Ask

/-! ## The walk refines the evaluator -/

namespace Tree

variable [LawfulMonad m] {locate : Locate m π} {vocabulary : Vocabulary m π φ}

/-- The checks are those of the walk. -/
theorem meaningOf_eq_check (op : Operator ρ) (left right : Tree ρ) :
    meaningOf vocabulary op left right =
      ask (MonadExcept.ofExcept (check vocabulary op left right)) := by
  unfold meaningOf check
  cases op.kind with
  | transform rules => simp [lacks, MonadExcept.ofExcept]
  | binary =>
    cases vocabulary.get? op.token with
    | none => simp [MonadExcept.ofExcept]
    | some meaning =>
      dsimp only
      split
      · simp [lacks, MonadExcept.ofExcept]
      · split
        · simp [lacks, MonadExcept.ofExcept]
        · simp [MonadExcept.ofExcept]

/-- From any stack the walk pushes exactly the value of the tree, or it is refused as the evaluator
is. -/
theorem walk_eq_evaluate (t : Tree ρ) (stack : List (Bound π φ)) :
    walk locate vocabulary t stack =
      (fun value => value :: stack) <$> ask (evaluate locate vocabulary t) := by
  induction t generalizing stack with
  | hole => simp [walk, evaluate]
  | leaf x =>
    cases x with
    | literal text value => simp [walk, evaluate]
    | field reference => simp [walk, evaluate]
  | node op left right ihleft ihright =>
    simp [walk, evaluate, meaningOf_eq_check, ihleft, ihright]

theorem bind_eq_predicateOf (t : Tree ρ) :
    bind locate vocabulary t = ask (predicateOf locate vocabulary t) := by
  rw [bind, walk_eq_evaluate, predicateOf, ask_bind, bind_map_left]
  congr 1
  funext value
  cases value with
  | literal value => simp
  | location path => simp
  | predicate predicate => simp

end Tree

end FilterLang
