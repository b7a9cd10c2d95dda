import FilterLang.Proofs.Expr.Regular

/-!
# Transforming operators that stay

A transforming operator is reduced when an operand comes and both of its sides are there.  An operator that
comes does not set this off: a heavier one sinks into the right side of a transforming operator, which then has
something on both sides and stays.  But what stands there holds no operand, and so somewhere below it a side is
missing (`Tree.hole_mem_of_transform`).  A tree in which nothing is missing has no transforming operator
(`Tree.binary_of_hole_not_mem`).
-/

namespace FilterLang.Tree

variable {ρ : Type}

/-! ## Subtrees -/

/-- The tree and everything below it, each node before its two sides; a missing side is there as a hole. -/
def subtrees : Tree ρ → List (Tree ρ)
  | hole => [hole]
  | leaf x => [leaf x]
  | node op left right => node op left right :: (left.subtrees ++ right.subtrees)

theorem mem_subtrees_node_iff {s left right : Tree ρ} {op : Operator ρ} :
    s ∈ (node op left right).subtrees ↔
      s = node op left right ∨ s ∈ left.subtrees ∨ s ∈ right.subtrees := by
  simp [subtrees]

theorem self_mem_subtrees (t : Tree ρ) : t ∈ t.subtrees := by
  cases t <;> simp [subtrees]

/-- What stands below a part of the tree stands below the tree. -/
theorem subtrees_subset {s t : Tree ρ} (h : s ∈ t.subtrees) : s.subtrees ⊆ t.subtrees := by
  induction t with
  | hole =>
    obtain rfl := List.mem_singleton.1 h
    exact List.Subset.refl _
  | leaf _ =>
    obtain rfl := List.mem_singleton.1 h
    exact List.Subset.refl _
  | node op left right ihleft ihright =>
    intro u hu
    rcases mem_subtrees_node_iff.1 h with rfl | hl | hr
    · exact hu
    · exact mem_subtrees_node_iff.2 (.inr (.inl (ihleft hl hu)))
    · exact mem_subtrees_node_iff.2 (.inr (.inr (ihright hr hu)))

theorem mem_operators_iff {t : Tree ρ} {op : Operator ρ} :
    op ∈ t.operators ↔ ∃ left right, node op left right ∈ t.subtrees := by
  induction t with
  | hole => simp [operators, subtrees]
  | leaf _ => simp [operators, subtrees]
  | node top l r ihleft ihright =>
    simp only [operators, List.mem_append, List.mem_cons, ihleft, ihright, mem_subtrees_node_iff]
    constructor
    · rintro (⟨left, right, h⟩ | rfl | ⟨left, right, h⟩)
      · exact ⟨left, right, .inr (.inl h)⟩
      · exact ⟨l, r, .inl rfl⟩
      · exact ⟨left, right, .inr (.inr h)⟩
    · rintro ⟨left, right, hself | h | h⟩
      · cases hself
        exact .inr (.inl rfl)
      · exact .inl ⟨left, right, h⟩
      · exact .inr (.inr ⟨left, right, h⟩)

/-- Every operator of a regular tree is proper where it stands. -/
theorem proper_of_mem_subtrees {t left right : Tree ρ} {op : Operator ρ} (ht : t.Regular)
    (h : node op left right ∈ t.subtrees) : Proper op left right := by
  induction t with
  | hole => simp [subtrees] at h
  | leaf _ => simp [subtrees] at h
  | node top l r ihleft ihright =>
    obtain ⟨hproper, hl, hr⟩ := ht
    rcases mem_subtrees_node_iff.1 h with hself | hbelow | hbelow
    · cases hself
      exact hproper
    · exact ihleft hl hbelow
    · exact ihright hr hbelow

/-! ## Trees without operands -/

/-- In a tree without operands some operand is missing. -/
theorem hole_mem_of_operands_eq_nil {t : Tree ρ} (h : t.operands = []) : hole ∈ t.subtrees := by
  induction t with
  | hole => simp [subtrees]
  | leaf _ => simp [operands] at h
  | node op left right _ ih =>
    have hright : right.operands = [] := (List.append_eq_nil_iff.1 h).2
    exact mem_subtrees_node_iff.2 (.inr (.inr (ih hright)))

/-- If such a tree is more than a hole, then the operator at the end of its right spine lacks its right
side. -/
theorem exists_right_hole {t : Tree ρ} (hnone : t.operands = []) (hthere : t ≠ hole) :
    ∃ op left, node op left hole ∈ t.subtrees := by
  induction t with
  | hole => exact absurd rfl hthere
  | leaf _ => simp [operands] at hnone
  | node op left right _ ih =>
    by_cases hright : right = hole
    · exact ⟨op, left, hright ▸ self_mem_subtrees _⟩
    · obtain ⟨o, l, hmem⟩ := ih (List.append_eq_nil_iff.1 hnone).2 hright
      exact ⟨o, l, mem_subtrees_node_iff.2 (.inr (.inr hmem))⟩

/-! ## Leftover operators -/

/-- Where a transforming operator has stayed, an operand is missing below it. -/
theorem hole_mem_of_transform {t left right : Tree ρ} {op : Operator ρ} (ht : t.Regular)
    (h : node op left right ∈ t.subtrees) (hkind : op.kind ≠ .binary) :
    right.operands = [] ∧ hole ∈ (node op left right).subtrees := by
  have hnone : right.operands = [] := (proper_of_mem_subtrees ht h).reduced hkind
  refine ⟨hnone, ?_⟩
  exact mem_subtrees_node_iff.2 (.inr (.inr (hole_mem_of_operands_eq_nil hnone)))

/-- If nothing is missing, no transforming operator has stayed. -/
theorem binary_of_hole_not_mem {t : Tree ρ} (ht : t.Regular) (hnone : hole ∉ t.subtrees) {op : Operator ρ}
    (hop : op ∈ t.operators) : op.kind = .binary := by
  obtain ⟨left, right, hmem⟩ := mem_operators_iff.1 hop
  by_contra hkind
  exact hnone (subtrees_subset hmem (hole_mem_of_transform ht hmem hkind).2)

end FilterLang.Tree
