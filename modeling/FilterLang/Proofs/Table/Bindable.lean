import FilterLang.Proofs.Expr.Regular
import FilterLang.Proofs.Table.Evaluation

/-!
# Which trees can be bound to a table

Binding a tree checks it as it goes: every operator before its sides are looked at, every field where
it stands, and what the sides are bound to when a meaning takes them.  All these checks together come to
a condition on the tree alone (`Tree.Bindable`), and exactly the trees that fulfil it can be bound
(`Table.bind_succeeds_iff`).

The induction is on the tree.  What a side is bound to shows what stands there: an operand can be compared,
and a predicate, a field or a truth value can be a condition (`Table.isSome_term?`,
`Table.isSome_condition?`).
-/

namespace FilterLang

variable {ρ : Type}

namespace Tree

/-! ## Well-formed trees -/

/-- Whether the tree is an operator with its two sides. -/
def isApplied : Tree ρ → Bool
  | hole => false
  | leaf _ => false
  | node _ _ _ => true

/-- Whether the tree is a single operand. -/
def isOperand : Tree ρ → Bool
  | hole => false
  | leaf _ => true
  | node _ _ _ => false

/-- Whether the tree can be a side of "and" and "or": an operator, a field or a truth value. -/
def isCondition : Tree ρ → Bool
  | hole => false
  | leaf (.literal _ (.boolean _)) => true
  | leaf (.literal _ _) => false
  | leaf (.field _) => true
  | node _ _ _ => true

/-- An operator of a tree with what stands on its two sides. -/
structure Application (ρ : Type) where
  op : Operator ρ
  left : Tree ρ
  right : Tree ρ

/-- The operators of the tree with their sides, at any depth, from left to right. -/
def applications : Tree ρ → List (Application ρ)
  | hole => []
  | leaf _ => []
  | node op left right => left.applications ++ ⟨op, left, right⟩ :: right.applications

/-- What has to hold of an operator and of what stands on its sides. -/
structure Application.Sound (a : Application ρ) : Prop where
  binary : a.op.kind = .binary
  left_there : a.left.isHole = false
  right_there : a.right.isHole = false
  known : a.op.token = "=" ∨ a.op.token = "and" ∨ a.op.token = "or"
  compares : a.op.token = "=" → a.left.isOperand = true ∧ a.right.isOperand = true
  joins : a.op.token = "and" ∨ a.op.token = "or" → a.left.isCondition = true ∧ a.right.isCondition = true

/-- What has to hold of a tree for a table with these columns. -/
structure Bindable (columns : List String) (tree : Tree ρ) : Prop where
  applied : tree.isApplied = true
  sound : ∀ a ∈ tree.applications, a.Sound
  located : ∀ reference, .field reference ∈ tree.operands → reference.name ∈ columns

end Tree

namespace Table

variable {t : Table} {tree : Tree ρ} {b : TableOperand}

/-! ## What the sides are bound to -/

/-- What can be compared is bound to an operand. -/
theorem isSome_term? (h : t.evaluate Table.vocabulary tree = .ok b) :
    b.term?.isSome = tree.isOperand := by
  cases tree with
  | hole => cases h
  | leaf x =>
    cases x with
    | literal text value =>
      rw [evaluate_literal] at h
      cases h
      rfl
    | field reference =>
      obtain ⟨index, -, rfl⟩ := evaluate_field_eq_ok_iff.1 h
      rfl
  | node op left right =>
    obtain ⟨-, -, -, _, _, _, condition, -, -, -, -, rfl⟩ := evaluate_node_eq_ok_iff.1 h
    rfl

/-- What can be a condition is bound to one. -/
theorem isSome_condition? (h : t.evaluate Table.vocabulary tree = .ok b) :
    b.condition?.isSome = tree.isCondition := by
  cases tree with
  | hole => cases h
  | leaf x =>
    cases x with
    | literal text value =>
      rw [evaluate_literal] at h
      cases h
      cases value <;> rfl
    | field reference =>
      obtain ⟨index, -, rfl⟩ := evaluate_field_eq_ok_iff.1 h
      rfl
  | node op left right =>
    obtain ⟨-, -, -, _, _, _, condition, -, -, -, -, rfl⟩ := evaluate_node_eq_ok_iff.1 h
    rfl

/-- A meaning takes its operands exactly if it can take each of them. -/
theorem exists_combine_iff {α : Type} {operator : String} {take? : TableOperand → Option α}
    {make : α → α → Condition} {l r : TableOperand} :
    (∃ c, (combine operator take? make l r).run.run = .ok c) ↔
      (take? l).isSome = true ∧ (take? r).isSome = true := by
  simp only [combine_eq_ok_iff, Option.isSome_iff_exists]
  constructor
  · rintro ⟨_, x, y, hx, hy, -⟩
    exact ⟨⟨x, hx⟩, ⟨y, hy⟩⟩
  · rintro ⟨⟨x, hx⟩, ⟨y, hy⟩⟩
    exact ⟨make x y, x, y, hx, hy, rfl⟩

theorem exists_locate_iff {reference : Reference} :
    (∃ b, t.evaluate Table.vocabulary (.leaf (.field reference) : Tree ρ) = .ok b) ↔ reference.name ∈ t.columns := by
  simp only [evaluate_field_eq_ok_iff]
  rw [← List.isSome_idxOf?, Option.isSome_iff_exists]
  constructor
  · rintro ⟨_, index, hindex, -⟩
    exact ⟨index, hindex⟩
  · rintro ⟨index, hindex⟩
    exact ⟨_, index, hindex, rfl⟩

/-! ## One operator -/

variable {left right : Tree ρ} {l r : TableOperand}

/-- A token has a meaning for what two sides are bound to exactly if it is one of the three and the sides
are what it takes. -/
theorem exists_meaning_iff (hl : t.evaluate Table.vocabulary left = .ok l)
    (hr : t.evaluate Table.vocabulary right = .ok r) (token : String) :
    (∃ meaning condition, Table.vocabulary.get? token = some meaning ∧
        (meaning l r).run.run = .ok condition) ↔
      (token = "=" ∨ token = "and" ∨ token = "or") ∧
        (token = "=" → left.isOperand = true ∧ right.isOperand = true) ∧
        (token = "and" ∨ token = "or" → left.isCondition = true ∧ right.isCondition = true) := by
  have hequal : (∃ c, (connectives.equal l r).run.run = .ok c) ↔
      left.isOperand = true ∧ right.isOperand = true := by
    rw [← isSome_term? hl, ← isSome_term? hr]
    exact exists_combine_iff
  have hand : (∃ c, (connectives.and l r).run.run = .ok c) ↔
      left.isCondition = true ∧ right.isCondition = true := by
    rw [← isSome_condition? hl, ← isSome_condition? hr]
    exact exists_combine_iff
  have hor : (∃ c, (connectives.or l r).run.run = .ok c) ↔
      left.isCondition = true ∧ right.isCondition = true := by
    rw [← isSome_condition? hl, ← isSome_condition? hr]
    exact exists_combine_iff
  rw [get?_vocabulary]
  by_cases htoken : token = "="
  · subst htoken
    simp [hequal]
  · by_cases htoken' : token = "and"
    · subst htoken'
      simp [hand]
    · by_cases htoken'' : token = "or"
      · subst htoken''
        simp [hor]
      · simp [htoken, htoken', htoken'']

/-- An operator can be bound exactly if it is sound and its sides can be bound. -/
theorem exists_evaluate_node_iff {op : Operator ρ} :
    (∃ b, t.evaluate Table.vocabulary (.node op left right) = .ok b) ↔
      (⟨op, left, right⟩ : Tree.Application ρ).Sound ∧
        (∃ l, t.evaluate Table.vocabulary left = .ok l) ∧
        (∃ r, t.evaluate Table.vocabulary right = .ok r) := by
  simp only [evaluate_node_eq_ok_iff]
  constructor
  · rintro ⟨_, hkind, hleft, hright, meaning, l, r, condition, hget, hl, hr, hcondition, -⟩
    obtain ⟨hknown, hcompares, hjoins⟩ :=
      (exists_meaning_iff hl hr op.token).1 ⟨meaning, condition, hget, hcondition⟩
    exact ⟨⟨hkind, hleft, hright, hknown, hcompares, hjoins⟩, ⟨l, hl⟩, ⟨r, hr⟩⟩
  · rintro ⟨hsound, ⟨l, hl⟩, ⟨r, hr⟩⟩
    obtain ⟨meaning, condition, hget, hcondition⟩ :=
      (exists_meaning_iff hl hr op.token).2 ⟨hsound.known, hsound.compares, hsound.joins⟩
    exact ⟨_, hsound.binary, hsound.left_there, hsound.right_there, meaning, l, r, condition, hget, hl,
      hr, hcondition, rfl⟩

/-! ## Whole trees -/

/-- A tree can be bound to something exactly if it is there, all its operators are sound and all its
fields are columns. -/
theorem exists_evaluate_iff :
    (∃ b, t.evaluate Table.vocabulary tree = .ok b) ↔
      tree.isHole = false ∧ (∀ a ∈ tree.applications, a.Sound) ∧
        (∀ reference, .field reference ∈ tree.operands → reference.name ∈ t.columns) := by
  induction tree with
  | hole =>
    constructor
    · rintro ⟨b, h⟩
      cases h
    · rintro ⟨h, -⟩
      cases h
  | leaf x =>
    cases x with
    | literal text value => simp [evaluate_literal, Tree.isHole, Tree.applications, Tree.operands]
    | field reference =>
      rw [exists_locate_iff]
      simp [Tree.isHole, Tree.applications, Tree.operands]
  | node op left right ihleft ihright =>
    rw [exists_evaluate_node_iff, ihleft, ihright]
    simp only [Tree.isHole, Tree.applications, Tree.operands, List.mem_append, List.mem_cons, or_imp,
      forall_and, forall_eq, true_and]
    constructor
    · rintro ⟨hsound, ⟨-, hleft, hfields⟩, -, hright, hfields'⟩
      exact ⟨⟨hleft, hsound, hright⟩, hfields, hfields'⟩
    · rintro ⟨⟨hleft, hsound, hright⟩, hfields, hfields'⟩
      exact ⟨hsound, ⟨hsound.left_there, hleft, hfields⟩, hsound.right_there, hright, hfields'⟩

/-- A tree can be bound to a predicate exactly if it can be bound and its root is an operator. -/
theorem exists_predicate_iff :
    (∃ c, t.evaluate Table.vocabulary tree = .ok (.predicate c)) ↔
      tree.isApplied = true ∧ ∃ b, t.evaluate Table.vocabulary tree = .ok b := by
  cases tree with
  | hole =>
    constructor
    · rintro ⟨c, h⟩
      cases h
    · rintro ⟨h, -⟩
      cases h
  | leaf x =>
    constructor
    · rintro ⟨c, h⟩
      have hterm := isSome_term? h
      cases hterm
    · rintro ⟨h, -⟩
      cases h
  | node op left right =>
    constructor
    · rintro ⟨c, h⟩
      exact ⟨rfl, _, h⟩
    · rintro ⟨-, b, h⟩
      obtain ⟨-, -, -, _, _, _, c, -, -, -, -, rfl⟩ := evaluate_node_eq_ok_iff.1 h
      exact ⟨c, h⟩

theorem exists_bind_iff :
    (∃ c, t.bind Table.vocabulary tree = .ok c) ↔ tree.Bindable t.columns := by
  simp only [bind_eq_ok_iff]
  rw [exists_predicate_iff, exists_evaluate_iff]
  constructor
  · rintro ⟨happlied, -, hsound, hlocated⟩
    exact ⟨happlied, hsound, hlocated⟩
  · rintro ⟨happlied, hsound, hlocated⟩
    have hthere : tree.isHole = false := by
      cases tree with
      | hole => cases happlied
      | leaf _ => rfl
      | node _ _ _ => rfl
    exact ⟨happlied, hthere, hsound, hlocated⟩

/-- A tree can be bound to a table exactly if its root is an operator, every operator in it stays there,
is one of the three, has both sides and finds on them what it takes, and every field is a column.  A tree
that is not so is refused; nothing is bound, and no operand is missing on the stack or left over. -/
theorem bind_succeeds_iff (t : Table) (tree : Tree ρ) :
    ((∃ c, t.bind Table.vocabulary tree = .ok c) ↔ tree.Bindable t.columns) ∧
      (¬tree.Bindable t.columns → ∃ cause, t.bind Table.vocabulary tree = .error (.refused cause)) := by
  refine ⟨exists_bind_iff, ?_⟩
  intro hnot
  rw [← exists_bind_iff] at hnot
  rw [bind_eq_predicateOf] at hnot ⊢
  cases h : (tree.predicateOf t.locate Table.vocabulary).run.run with
  | ok c => exact absurd ⟨c, by rw [h]; rfl⟩ hnot
  | error cause => exact ⟨cause, rfl⟩

end Table

end FilterLang
