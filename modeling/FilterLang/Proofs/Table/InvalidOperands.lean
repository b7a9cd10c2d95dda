import FilterLang.Proofs.Expr.Leftover
import FilterLang.Proofs.Table.Evaluation

/-!
# Operands that do not fit

On a table the usual operators may be registered under any tokens.  When the operands of one do not fit, the
report names their types, and these are right; the operator is named as it is usually written, whatever its
token is (`Table.exists_blamed_of_bind`).
-/

namespace FilterLang

variable {ρ : Type}

/-- The usual operators by what they do. -/
inductive Connective where
  | equal
  | and
  | or
deriving DecidableEq

namespace Connective

/-- The name under which reports show the operator. -/
def name : Connective → String
  | equal => "="
  | and => "and"
  | or => "or"

/-- What the operator means on tables. -/
def meaning : Connective → Meaning Id Column Condition
  | equal => Table.connectives.equal
  | and => Table.connectives.and
  | or => Table.connectives.or

/-- Whether the operator can take the operand: a comparison takes cells and constants, the others take
conditions. -/
def takes : Connective → TableOperand → Bool
  | equal, b => b.term?.isSome
  | and, b => b.condition?.isSome
  | or, b => b.condition?.isSome

/-- The operators under their own names. -/
def usualTokens : Keyed Connective :=
  .ofList [("=", equal), ("and", and), ("or", or)]

theorem get?_usualTokens_eq_some_iff {token : String} {c : Connective} :
    usualTokens.get? token = some c ↔ token = c.name := by
  rw [usualTokens, Keyed.get?_ofList]
  cases c <;> simp only [List.reverse_cons, List.reverse_nil, List.nil_append, List.cons_append,
    List.lookup_cons, List.lookup_nil, name] <;> grind

end Connective

theorem Table.combine_eq_error_iff {α : Type} {operator : String} {take? : TableOperand → Option α}
    {make : α → α → Condition} {l r : TableOperand} {e : ExprError} :
    (combine operator take? make l r).run.run = .error e ↔
      ((take? l).isSome && (take? r).isSome) = false ∧ e = .invalidOperands operator l.type r.type := by
  unfold combine
  cases take? l with
  | none =>
    show Except.error _ = _ ↔ _
    simp [eq_comm]
  | some a =>
    cases take? r with
    | none =>
      show Except.error _ = _ ↔ _
      simp [eq_comm]
    | some b =>
      show Except.ok _ = _ ↔ _
      simp

/-- An operator refuses operands exactly if it cannot take both, and reports its name and their types. -/
theorem Connective.meaning_eq_error_iff {c : Connective} {l r : TableOperand} {e : ExprError} :
    (c.meaning l r).run.run = .error e ↔
      (c.takes l && c.takes r) = false ∧ e = .invalidOperands c.name l.type r.type := by
  cases c with
  | equal => exact Table.combine_eq_error_iff
  | and => exact Table.combine_eq_error_iff
  | or => exact Table.combine_eq_error_iff

namespace Table

/-- The vocabulary in which the operators are written with the tokens given. -/
def spelled (tokens : Keyed Connective) : Vocabulary Id Column Condition :=
  tokens.mapValues Connective.meaning

theorem get?_spelled_eq_some_iff {tokens : Keyed Connective} {token : String}
    {meaning : Meaning Id Column Condition} :
    (spelled tokens).get? token = some meaning ↔ ∃ c, tokens.get? token = some c ∧ c.meaning = meaning := by
  rw [spelled, Keyed.get?_mapValues, Option.map_eq_some_iff]

theorem spelled_usualTokens : spelled Connective.usualTokens = vocabulary :=
  Keyed.mapValues_ofList Connective.meaning _

/-! ## What subtrees are bound to -/

variable {t : Table} {vocabulary : Vocabulary Id Column Condition} {tokens : Keyed Connective} {tree : Tree ρ}
  {operator : String} {l r : OperandType}

/-- Whether the tree by itself is bound to the operand: the walk leaves it on the stack, and nothing else. -/
def BindsTo (t : Table) (vocabulary : Vocabulary Id Column Condition) (tree : Tree ρ) (b : TableOperand) :
    Prop :=
  (tree.walk t.locate vocabulary []).run.run = .ok [b]

theorem bindsTo_iff_evaluate {b : TableOperand} :
    t.BindsTo vocabulary tree b ↔ t.evaluate vocabulary tree = .ok b := by
  rw [BindsTo, Tree.walk_eq_evaluate, map_eq_pure_bind, runId_bind]
  change ((t.evaluate vocabulary tree).mapError Halt.refused >>= fun value => Except.ok [value]) = _ ↔ _
  rw [except_bind_eq_ok_iff]
  cases t.evaluate vocabulary tree with
  | error e => simp [Except.mapError]
  | ok value => simp [Except.mapError]

/-- Whether an operator of the tree has this token, and operands of these types on its two sides. -/
def HasOperands (t : Table) (vocabulary : Vocabulary Id Column Condition) (tree : Tree ρ) (token : String)
    (l r : OperandType) : Prop :=
  ∃ op left right a b, .node op left right ∈ tree.subtrees ∧ op.token = token ∧
    t.BindsTo vocabulary left a ∧ t.BindsTo vocabulary right b ∧ a.type = l ∧ b.type = r

/-! ## What is reported -/

/-- Whether an operator of the tree cannot take its operands, which are of these types, and is one that
reports name so. -/
def Blamed (t : Table) (tokens : Keyed Connective) (tree : Tree ρ) (operator : String) (l r : OperandType) :
    Prop :=
  ∃ c op left right a b, .node op left right ∈ tree.subtrees ∧ tokens.get? op.token = some c ∧
    c.name = operator ∧ t.BindsTo (spelled tokens) left a ∧ t.BindsTo (spelled tokens) right b ∧
    a.type = l ∧ b.type = r ∧ (c.takes a && c.takes b) = false

theorem Blamed.of_mem_subtrees {s : Tree ρ} (h : t.Blamed tokens s operator l r) (hs : s ∈ tree.subtrees) :
    t.Blamed tokens tree operator l r := by
  obtain ⟨c, op, left, right, a, b, hmem, hblamed⟩ := h
  exact ⟨c, op, left, right, a, b, Tree.subtrees_subset hs hmem, hblamed⟩

/-- The checks in front of the operands never report them. -/
theorem check_ne_invalidOperands (op : Operator ρ) (left right : Tree ρ) :
    Tree.check vocabulary op left right ≠ .error (.invalidOperands operator l r) := by
  intro h
  unfold Tree.check at h
  split at h
  · cases h
  · cases h
  · split at h
    · cases h
    · split at h <;> cases h

theorem exists_blamed_of_evaluate
    (h : t.evaluate (spelled tokens) tree = .error (.invalidOperands operator l r)) :
    t.Blamed tokens tree operator l r := by
  induction tree with
  | hole => cases h
  | leaf x =>
    cases x with
    | literal text value => cases h
    | field reference =>
      rw [evaluate_field] at h
      split at h <;> cases h
  | node op left right ihleft ihright =>
    rw [evaluate_node] at h
    simp only [except_bind_eq_error_iff] at h
    -- the failure comes from the left side, from the right side or from the operator itself
    rcases h with hcheck | ⟨meaning, hcheck, hleft | ⟨a, ha, hright | ⟨b, hb, hmeaning | ⟨_, -, hpure⟩⟩⟩⟩
    · exact absurd hcheck (check_ne_invalidOperands op left right)
    · refine (ihleft hleft).of_mem_subtrees ?_
      exact Tree.mem_subtrees_node_iff.2 (.inr (.inl left.self_mem_subtrees))
    · refine (ihright hright).of_mem_subtrees ?_
      exact Tree.mem_subtrees_node_iff.2 (.inr (.inr right.self_mem_subtrees))
    · obtain ⟨-, hget, -, -⟩ := Tree.check_eq_ok_iff.1 hcheck
      obtain ⟨c, hc, rfl⟩ := get?_spelled_eq_some_iff.1 hget
      obtain ⟨htakes, hreport⟩ := Connective.meaning_eq_error_iff.1 hmeaning
      cases hreport
      exact ⟨c, op, left, right, a, b, Tree.self_mem_subtrees _, hc, rfl, bindsTo_iff_evaluate.2 ha,
        bindsTo_iff_evaluate.2 hb, rfl, rfl, htakes⟩
    · cases hpure

theorem bind_eq_invalidOperands_iff :
    t.bind vocabulary tree = .error (.refused (.invalidOperands operator l r)) ↔
      t.evaluate vocabulary tree = .error (.invalidOperands operator l r) := by
  rw [bind_eq_answer]
  cases t.evaluate vocabulary tree with
  | error e => simp [Bind.bind, Except.bind, Except.mapError]
  | ok b =>
    cases b with
    | literal value => simp [Bind.bind, Except.bind, Except.mapError, answer]
    | location path => simp [Bind.bind, Except.bind, Except.mapError, answer]
    | predicate predicate => simp [Bind.bind, Except.bind, Except.mapError, answer]

/-- What is reported holds of some operator in the tree, up to the name. -/
theorem exists_blamed_of_bind
    (h : t.bind (spelled tokens) tree = .error (.refused (.invalidOperands operator l r))) :
    t.Blamed tokens tree operator l r :=
  exists_blamed_of_evaluate (bind_eq_invalidOperands_iff.1 h)

end Table

end FilterLang
