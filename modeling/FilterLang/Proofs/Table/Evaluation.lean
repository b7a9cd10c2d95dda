import FilterLang.Proofs.Binding.Evaluation
import FilterLang.Proofs.Except
import FilterLang.Table.Binding

/-!
# Evaluation on a table

A table keeps no log and has no state, so on a table the evaluator is a plain function.  Here is what
it takes for it to succeed: at a node, at an operator of the usual vocabulary, and for the whole tree.
-/

namespace FilterLang

/-! ## Computations without effects -/

section Pure

variable {α β ε : Type}

/-- Over `Id` the steps of `ExceptT` are those of `Except`. -/
theorem runId_bind (x : ExceptT ε Id α) (f : α → ExceptT ε Id β) :
    (x >>= f).run.run = x.run.run >>= fun a => (f a).run.run := by
  cases h : x.run.run with
  | ok a =>
    have hx : x = (pure a : ExceptT ε Id α) := h
    subst hx
    rfl
  | error e =>
    have hx : x = (throw e : ExceptT ε Id α) := h
    subst hx
    rfl

theorem runId_ofExcept (x : Except ε α) :
    (MonadExcept.ofExcept x : ExceptT ε Id α).run.run = x := by
  cases x with
  | ok a => rfl
  | error e => rfl

end Pure

namespace Table

variable {ρ : Type}

/-- What a tree is bound to on the table. -/
def evaluate (t : Table) (vocabulary : Vocabulary Id Column Condition) (tree : Tree ρ) :
    Except ExprError TableOperand :=
  (tree.evaluate t.locate vocabulary).run.run

variable {t : Table} {vocabulary : Vocabulary Id Column Condition}

/-! ## Nodes -/

theorem evaluate_literal (text : String) (value : Literal) :
    t.evaluate vocabulary (.leaf (.literal text value) : Tree ρ) = .ok (.literal value) := rfl

theorem evaluate_field (reference : Reference) :
    t.evaluate vocabulary (.leaf (.field reference) : Tree ρ) =
      match t.indexOf? reference.name with
      | some index => .ok (.location ⟨index, reference.name⟩)
      | none => .error (.unknownField reference.name) := by
  unfold evaluate
  simp only [Tree.evaluate, locate]
  cases t.indexOf? reference.name with
  | none => rfl
  | some index => rfl

/-- A field is bound to the column at which it is located. -/
theorem evaluate_field_eq_ok_iff {reference : Reference} {b : TableOperand} :
    t.evaluate vocabulary (.leaf (.field reference) : Tree ρ) = .ok b ↔
      ∃ index, t.indexOf? reference.name = some index ∧ b = .location ⟨index, reference.name⟩ := by
  rw [evaluate_field]
  cases t.indexOf? reference.name with
  | none => simp
  | some index => simp [eq_comm]

/-- The evaluator's equation at an operator, without the monad of the store. -/
theorem evaluate_node (op : Operator ρ) (left right : Tree ρ) :
    t.evaluate vocabulary (.node op left right) = do
      let meaning ← Tree.check vocabulary op left right
      let l ← t.evaluate vocabulary left
      let r ← t.evaluate vocabulary right
      return .predicate (← (meaning l r).run.run) := by
  unfold evaluate
  simp only [Tree.evaluate, runId_bind, runId_ofExcept]
  rfl

/-- An operator is bound exactly if it stays in the tree, has a meaning and both operands, and the
meaning takes what they are bound to. -/
theorem evaluate_node_eq_ok_iff {op : Operator ρ} {left right : Tree ρ} {b : TableOperand} :
    t.evaluate vocabulary (.node op left right) = .ok b ↔
      op.kind = .binary ∧ left.isHole = false ∧ right.isHole = false ∧
      ∃ meaning l r condition, vocabulary.get? op.token = some meaning ∧
        t.evaluate vocabulary left = .ok l ∧ t.evaluate vocabulary right = .ok r ∧
        (meaning l r).run.run = .ok condition ∧ b = .predicate condition := by
  rw [evaluate_node]
  simp only [except_bind_eq_ok_iff, Tree.check_eq_ok_iff]
  constructor
  · rintro ⟨meaning, ⟨hkind, hget, hleft, hright⟩, l, hl, r, hr, condition, hmeaning, hb⟩
    cases hb
    exact ⟨hkind, hleft, hright, meaning, l, r, condition, hget, hl, hr, hmeaning, rfl⟩
  · rintro ⟨hkind, hleft, hright, meaning, l, r, condition, hget, hl, hr, hmeaning, rfl⟩
    exact ⟨meaning, ⟨hkind, hget, hleft, hright⟩, l, hl, r, hr, condition, hmeaning, rfl⟩

/-! ## The usual operators -/

theorem get?_vocabulary (token : String) :
    Table.vocabulary.get? token =
      if token = "=" then some connectives.equal
      else if token = "and" then some connectives.and
      else if token = "or" then some connectives.or
      else none := by
  simp only [Table.vocabulary, Vocabulary.standard, Keyed.ofList, List.foldl_cons, List.foldl_nil,
    Keyed.get?_insert]
  have hempty : ({} : Keyed (Meaning Id Column Condition)).get? token = none := rfl
  rw [hempty]
  grind

/-- A meaning succeeds exactly if both operands can be taken as it takes them. -/
theorem combine_eq_ok_iff {α : Type} {operator : String} {take? : TableOperand → Option α}
    {make : α → α → Condition} {l r : TableOperand} {c : Condition} :
    (combine operator take? make l r).run.run = .ok c ↔
      ∃ a b, take? l = some a ∧ take? r = some b ∧ c = make a b := by
  unfold combine
  constructor
  · intro h
    split at h
    · rename_i a b ha hb
      cases h
      exact ⟨a, b, ha, hb, rfl⟩
    · cases h
  · rintro ⟨a, b, ha, hb, rfl⟩
    rw [ha, hb]
    rfl

/-- All that an operator of the usual vocabulary can make of its operands: a comparison of two terms, or two
conditions joined. -/
theorem meaning_eq_ok {token : String} {meaning : Meaning Id Column Condition} {l r : TableOperand}
    {c : Condition} (hget : Table.vocabulary.get? token = some meaning)
    (hmeaning : (meaning l r).run.run = .ok c) :
    (token = "=" ∧ ∃ a b, l.term? = some a ∧ r.term? = some b ∧ c = .equal a b) ∨
      (token = "and" ∧ ∃ a b, l.condition? = some a ∧ r.condition? = some b ∧ c = .and a b) ∨
      (token = "or" ∧ ∃ a b, l.condition? = some a ∧ r.condition? = some b ∧ c = .or a b) := by
  rw [get?_vocabulary] at hget
  by_cases hequal : token = "="
  · rw [if_pos hequal] at hget
    cases hget
    exact .inl ⟨hequal, combine_eq_ok_iff.1 hmeaning⟩
  · rw [if_neg hequal] at hget
    by_cases hand : token = "and"
    · rw [if_pos hand] at hget
      cases hget
      exact .inr (.inl ⟨hand, combine_eq_ok_iff.1 hmeaning⟩)
    · rw [if_neg hand] at hget
      by_cases hor : token = "or"
      · rw [if_pos hor] at hget
        cases hget
        exact .inr (.inr ⟨hor, combine_eq_ok_iff.1 hmeaning⟩)
      · rw [if_neg hor] at hget
        cases hget

/-! ## Whole trees -/

/-- Binding stops only where the expression is refused. -/
theorem bind_eq_predicateOf (tree : Tree ρ) :
    t.bind vocabulary tree =
      ((tree.predicateOf t.locate vocabulary).run.run).mapError Halt.refused := by
  unfold bind
  rw [Tree.bind_eq_predicateOf]
  rfl

/-- The answer for the value of the root: only a predicate is one. -/
def answer : TableOperand → Except ExprError Condition
  | .predicate c => .ok c
  | other => .error (.notPredicate other.type)

/-- Binding is evaluating the tree and looking at the value of its root. -/
theorem bind_eq_answer (tree : Tree ρ) :
    t.bind vocabulary tree = (t.evaluate vocabulary tree >>= answer).mapError Halt.refused := by
  rw [bind_eq_predicateOf]
  unfold Tree.predicateOf
  rw [runId_bind]
  change ((t.evaluate vocabulary tree >>= _).mapError Halt.refused) = _
  cases t.evaluate vocabulary tree with
  | error e => rfl
  | ok b => cases b <;> rfl

theorem bind_eq_ok_iff {tree : Tree ρ} {c : Condition} :
    t.bind vocabulary tree = .ok c ↔ t.evaluate vocabulary tree = .ok (.predicate c) := by
  rw [bind_eq_answer]
  cases t.evaluate vocabulary tree with
  | error e => constructor <;> intro h <;> cases h
  | ok b =>
    cases b with
    | literal value => constructor <;> intro h <;> cases h
    | location path => constructor <;> intro h <;> cases h
    | predicate predicate =>
      constructor
      · intro h
        cases h
        rfl
      · intro h
        cases h
        rfl

end Table

end FilterLang
