import FilterLang.Expr.Merge
import FilterLang.Proofs.Except

/-!
# The shape of trees

What can be read off a tree: the units that it holds from left to right, whether an operand is missing
anywhere in it, and how the weights of its operators lie.  Merging leaves no tree empty.
-/

namespace FilterLang.Tree

variable {ρ : Type}

/-! ## Reading a tree -/

/-- The units of the tree from left to right; nothing stands for a hole. -/
def units : Tree ρ → List (Lexeme ρ)
  | hole => []
  | leaf x => [.operand x]
  | node op left right => left.units ++ .operator op :: right.units

/-- The operators of the tree from left to right. -/
def operators : Tree ρ → List (Operator ρ)
  | hole => []
  | leaf _ => []
  | node op left right => left.operators ++ op :: right.operators

/-- Whether no operand is missing, at any depth. -/
def complete : Tree ρ → Bool
  | hole => false
  | leaf _ => true
  | node _ left right => left.complete && right.complete

/-- Weights grow from the root to the leaves: nothing on the left side of an operator weighs less than
it, and everything on its right side weighs more.  So of two operators with equal weights, the one
that is written first is never above the other. -/
def Graded : Tree ρ → Prop
  | hole => True
  | leaf _ => True
  | node op left right =>
    (∀ o ∈ left.operators, op.weight ≤ o.weight) ∧ (∀ o ∈ right.operators, op.weight < o.weight) ∧
      left.Graded ∧ right.Graded

theorem isHole_eq_false_of_complete {t : Tree ρ} (h : t.complete = true) : t.isHole = false := by
  cases t with
  | hole => simp [complete] at h
  | leaf _ => rfl
  | node _ _ _ => rfl

/-! ## The steps of merging -/

variable [Reducer ρ]

theorem pending_of_addOperand {x : Operand} {t u : Tree ρ} (h : addOperand x t = .ok u) :
    t.pending = true := by
  rw [← Bool.not_eq_false]
  intro hfull
  rw [addOperand_of_not_pending hfull] at h
  cases h

/-- Where the left side is there, an operand goes to the right. -/
theorem addOperand_node {x : Operand} {op : Operator ρ} {left right r : Tree ρ}
    (hleft : left.isHole = false) (h : addOperand x right = .ok r) :
    addOperand x (node op left right) = settle op left r := by
  simp only [addOperand, hleft, pending_of_addOperand h, h]
  rfl

theorem addOperator_node_of_lt {op top : Operator ρ} {l r left right t : Tree ρ}
    (hlt : top.weight < op.weight) (h : addOperator op left right r = .ok t) :
    addOperator op left right (node top l r) = .ok (node top l t) := by
  simp only [addOperator, hlt, h]
  rfl

theorem addOperator_node_of_not_lt {op top : Operator ρ} {l r left right : Tree ρ}
    (hlt : ¬top.weight < op.weight) :
    addOperator op left right (node top l r) = .ok (node op (node top l r) right) := by
  simp [addOperator, hlt]

/-- An operator takes the single operand in front of it as its left side. -/
theorem addOperator_leaf (op : Operator ρ) (x : Operand) :
    addOperator op hole hole (leaf x) = .ok (node op (leaf x) hole) := by
  show settle op (leaf x) hole = _
  unfold settle
  split
  · rfl
  · simp [isHole]

/-- What settling leaves: the operator over its sides, or what a rule makes of the two sides in place of
a transforming one that has both. -/
theorem settle_eq_ok {op : Operator ρ} {left right t : Tree ρ} (h : settle op left right = .ok t) :
    (t = node op left right ∧ (op.kind = .binary ∨ left = hole ∨ right = hole)) ∨
      ∃ x, t = leaf x ∧ ∃ rule, Reducer.reduce rule left right = some x := by
  unfold settle at h
  split at h
  · rename_i hkind
    cases h
    exact .inl ⟨rfl, .inl hkind⟩
  · split at h
    · rename_i hmissing
      rw [Bool.or_eq_true, isHole_iff, isHole_iff] at hmissing
      cases h
      exact .inl ⟨rfl, .inr hmissing⟩
    · split at h
      · rename_i x hfirst
        cases h
        obtain ⟨rule, -, hrule⟩ := List.exists_of_findSome?_eq_some hfirst
        exact .inr ⟨x, rfl, rule, hrule⟩
      · cases h

/-- Where an operand goes at an operator: to its left side if that is missing, and down the right side
otherwise. -/
theorem addOperand_node_eq_ok {x : Operand} {op : Operator ρ} {left right u : Tree ρ}
    (h : addOperand x (node op left right) = .ok u) :
    (left = hole ∧ settle op (leaf x) right = .ok u) ∨
      (left.isHole = false ∧ ∃ r, addOperand x right = .ok r ∧ settle op left r = .ok u) := by
  simp only [addOperand] at h
  split at h
  · rename_i hleft
    exact .inl ⟨isHole_iff.1 hleft, h⟩
  · rename_i hleft
    split at h
    · obtain ⟨r, hright, hsettle⟩ := except_bind_eq_ok_iff.1 h
      exact .inr ⟨Bool.eq_false_iff.2 hleft, r, hright, hsettle⟩
    · cases h

/-- Where an operator goes at another one: down the right side if it weighs more, and above it
otherwise. -/
theorem addOperator_node_eq_ok {op top : Operator ρ} {left right l r u : Tree ρ}
    (h : addOperator op left right (node top l r) = .ok u) :
    (top.weight < op.weight ∧ ∃ r', addOperator op left right r = .ok r' ∧ u = node top l r') ∨
      (¬top.weight < op.weight ∧ u = node op (node top l r) right) := by
  simp only [addOperator] at h
  split at h
  · rename_i hlt
    obtain ⟨r', hright, hnode⟩ := except_bind_eq_ok_iff.1 h
    cases hnode
    exact .inl ⟨hlt, r', hright, rfl⟩
  · rename_i hlt
    cases h
    exact .inr ⟨hlt, rfl⟩

/-! ## Merging leaves a tree -/

theorem isHole_settle {op : Operator ρ} {left right t : Tree ρ} (h : settle op left right = .ok t) :
    t.isHole = false := by
  rcases settle_eq_ok h with ⟨rfl, -⟩ | ⟨x, rfl, -⟩
  · rfl
  · rfl

theorem isHole_addOperand {x : Operand} {t u : Tree ρ} (h : addOperand x t = .ok u) :
    u.isHole = false := by
  cases t with
  | hole =>
    cases h
    rfl
  | leaf _ => cases h
  | node op left right =>
    -- wherever the operand went, what comes back is settled here
    rcases addOperand_node_eq_ok h with ⟨-, hsettle⟩ | ⟨-, r, -, hsettle⟩
    · exact isHole_settle hsettle
    · exact isHole_settle hsettle

theorem isHole_addOperator {op : Operator ρ} {left right t u : Tree ρ}
    (h : addOperator op left right t = .ok u) : u.isHole = false := by
  cases t with
  | hole =>
    cases h
    rfl
  | leaf x => exact isHole_addOperand h
  | node top l r =>
    rcases addOperator_node_eq_ok h with ⟨-, r', -, rfl⟩ | ⟨-, rfl⟩
    · rfl
    · rfl

/-- Whatever unit is merged, there is a tree afterwards. -/
theorem isHole_add {t u : Tree ρ} {v : Lexeme ρ} (h : t.add v = .ok u) : u.isHole = false := by
  cases v with
  | operand x => exact isHole_addOperand h
  | operator op => exact isHole_addOperator h

/-! ## How merging fails -/

/-- The causes for which a unit cannot be merged. -/
inductive MergeError : ExprError → Prop where
  | strayOperand (text : String) : MergeError (.strayOperand text)
  | irreducible (operator left right : String) : MergeError (.irreducible operator left right)

theorem mergeError_settle {op : Operator ρ} {left right : Tree ρ} {e : ExprError}
    (h : settle op left right = .error e) : MergeError e := by
  unfold settle at h
  split at h
  · cases h
  · split at h
    · cases h
    · split at h <;> cases h
      exact .irreducible _ _ _

theorem mergeError_addOperand {x : Operand} {t : Tree ρ} {e : ExprError}
    (h : addOperand x t = .error e) : MergeError e := by
  induction t with
  | hole => cases h
  | leaf _ =>
    cases h
    exact .strayOperand _
  | node op left right _ ih =>
    simp only [addOperand] at h
    split at h
    · exact mergeError_settle h
    · split at h
      · rcases except_bind_eq_error_iff.1 h with hright | ⟨r, -, hsettle⟩
        · exact ih hright
        · exact mergeError_settle hsettle
      · cases h
        exact .strayOperand _

theorem mergeError_addOperator {op : Operator ρ} {left right t : Tree ρ} {e : ExprError}
    (h : addOperator op left right t = .error e) : MergeError e := by
  induction t with
  | hole => cases h
  | leaf _ => exact mergeError_addOperand h
  | node top l r _ ih =>
    simp only [addOperator] at h
    split at h
    · rcases except_bind_eq_error_iff.1 h with hright | ⟨r', -, hnode⟩
      · exact ih hright
      · cases hnode
    · cases h

theorem mergeError_add {t : Tree ρ} {u : Lexeme ρ} {e : ExprError} (h : t.add u = .error e) :
    MergeError e := by
  cases u with
  | operand x => exact mergeError_addOperand h
  | operator op => exact mergeError_addOperator h

/-! ## Parts of a sequence -/

theorem ofLexemes_append_singleton_eq_ok_iff {us : List (Lexeme ρ)} {v : Lexeme ρ} {u : Tree ρ} :
    ofLexemes (us ++ [v]) = .ok u ↔ ∃ t, ofLexemes us = .ok t ∧ t.add v = .ok u := by
  have hlast : ∀ t : Tree ρ, [v].foldlM add t = t.add v := fun t => bind_pure (t.add v)
  rw [ofLexemes_append]
  simp only [hlast]
  exact except_bind_eq_ok_iff

/-- A sequence that can be taken in can be stopped anywhere. -/
theorem exists_ofLexemes_of_prefix {us vs : List (Lexeme ρ)} {t : Tree ρ} (hpre : us <+: vs)
    (h : ofLexemes vs = .ok t) : ∃ u, ofLexemes us = .ok u := by
  obtain ⟨rest, rfl⟩ := hpre
  rw [ofLexemes_append] at h
  cases hu : ofLexemes us with
  | error e =>
    rw [hu] at h
    cases h
  | ok u => exact ⟨u, rfl⟩

end FilterLang.Tree
