import FilterLang.Proofs.Binding.Evaluation
import FilterLang.Proofs.Expr.Leftover

/-!
# Operands that binding misses

Binding stops at an operator that lacks an operand, and reports the operator and the side.  For a binary
operator the report is read off the tree.  A transforming operator should have been reduced, so one that is met
is reported without a look at its right side: if its left side is there, the right one is said to be missing.
That is wrong where both are there (`Tree.Crowded`), and nowhere else (`Tree.hasCause_of_canReport`).

A store may do what it likes while it is asked.  `CanFail` says that a computation can end with an error,
whatever the monad of the store makes of that.
-/

namespace FilterLang

open MonadAttach LawfulMonadAttach

/-! ## How computations fail -/

section Failing

variable {m : Type → Type} [MonadAttach m] {α β ε : Type}

/-- Whether the computation can end with the error. -/
def CanFail (x : ExceptT ε m α) (e : ε) : Prop :=
  CanReturn x.run (.error e)

variable [Monad m] [LawfulMonad m] [LawfulMonadAttach m]

theorem canFail_pure {a : α} {e : ε} : ¬CanFail (pure a : ExceptT ε m α) e := by
  intro h
  rw [CanFail, ExceptT.run_pure] at h
  cases eq_of_canReturn_pure h

theorem canFail_throw {e e' : ε} (h : CanFail (throw e : ExceptT ε m α) e') : e' = e := by
  rw [CanFail, ExceptT.run_throw] at h
  cases eq_of_canReturn_pure h
  rfl

/-- A sequence fails in its first part, or in what follows a result of it. -/
theorem canFail_bind {x : ExceptT ε m α} {f : α → ExceptT ε m β} {e : ε} (h : CanFail (x >>= f) e) :
    CanFail x e ∨ ∃ a, CanReturn x.run (.ok a) ∧ CanFail (f a) e := by
  rw [CanFail, ExceptT.run_bind] at h
  obtain ⟨r, hr, hrest⟩ := canReturn_bind_imp' h
  cases r with
  | ok a => exact .inr ⟨a, hr, hrest⟩
  | error e' =>
    cases eq_of_canReturn_pure hrest
    exact .inl hr

end Failing

variable {m : Type → Type} [Monad m] [LawfulMonad m] [MonadAttach m] [LawfulMonadAttach m]
  {π φ ρ : Type}

/-- Refusals are what the store refuses. -/
theorem canFail_ask_refused {α : Type} {x : ExceptT ExprError m α} {e : ExprError}
    (h : CanFail (ask x) (.refused e)) : CanFail x e := by
  rw [CanFail, ask, ExceptT.run_adapt] at h
  obtain ⟨r, hr, heq⟩ := canReturn_map_imp' h
  cases r with
  | ok a => cases heq
  | error e' =>
    cases heq
    exact hr

/-- Whether neither a location nor the meaning of an operator is refused for a missing operand: the store
leaves that report to binding. -/
structure NeverMissing (locate : Locate m π) (vocabulary : Vocabulary m π φ) : Prop where
  locate : ∀ name token side, ¬CanFail (locate name) (.missingOperand token side)
  meaning : ∀ operator meaning, vocabulary.get? operator = some meaning →
    ∀ l r token side, ¬CanFail (meaning l r) (.missingOperand token side)

/-! ## What a report says of the tree -/

/-- Of the two sides of an operator, the one that is meant. -/
def Side.of : Side → Tree ρ → Tree ρ → Tree ρ
  | left, l, _ => l
  | right, _, r => r

namespace Tree

/-- Whether some operator of the tree has this token and lacks its operand on this side. -/
def Lacks (t : Tree ρ) (token : String) (side : Side) : Prop :=
  ∃ op left right, node op left right ∈ t.subtrees ∧ op.token = token ∧ side.of left right = hole

theorem hole_mem_of_lacks {t : Tree ρ} {token : String} {side : Side} (h : t.Lacks token side) :
    hole ∈ t.subtrees := by
  obtain ⟨op, left, right, hmem, -, hhole⟩ := h
  refine subtrees_subset hmem (mem_subtrees_node_iff.2 (.inr ?_))
  cases side with
  | left => exact .inl (hhole ▸ left.self_mem_subtrees)
  | right => exact .inr (hhole ▸ right.self_mem_subtrees)

/-- Whether some transforming operator of the tree has this token and something on both sides. -/
def Crowded (t : Tree ρ) (token : String) : Prop :=
  ∃ op left right, node op left right ∈ t.subtrees ∧ op.token = token ∧ op.kind ≠ .binary ∧
    left ≠ hole ∧ right ≠ hole

/-- Whether there is a cause for the report that an operand is missing: it is, or the report is of the right
side of a transforming operator that has both. -/
def HasCause (t : Tree ρ) (token : String) (side : Side) : Prop :=
  t.Lacks token side ∨ side = .right ∧ t.Crowded token

theorem HasCause.of_mem_subtrees {s t : Tree ρ} {token : String} {side : Side}
    (h : s.HasCause token side) (hs : s ∈ t.subtrees) : t.HasCause token side := by
  rcases h with ⟨op, left, right, hmem, hlacks⟩ | ⟨hside, op, left, right, hmem, hcrowded⟩
  · exact .inl ⟨op, left, right, subtrees_subset hs hmem, hlacks⟩
  · exact .inr ⟨hside, op, left, right, subtrees_subset hs hmem, hcrowded⟩

omit [LawfulMonad m] [MonadAttach m] [LawfulMonadAttach m] [Monad m] in
/-- An operator does not pass the checks for a missing operand only if there is a cause at it. -/
theorem hasCause_of_check {vocabulary : Vocabulary m π φ} {op : Operator ρ} {left right : Tree ρ}
    {token : String} {side : Side}
    (h : check vocabulary op left right = .error (.missingOperand token side)) :
    (node op left right).HasCause token side := by
  have hself := self_mem_subtrees (node op left right)
  unfold check at h
  cases hkind : op.kind with
  | transform rules =>
    simp only [hkind] at h
    by_cases hleft : left = hole
    · simp only [isHole_iff.2 hleft, if_true] at h
      cases h
      exact .inl ⟨op, left, right, hself, rfl, hleft⟩
    · simp only [isHole_iff, hleft, if_false] at h
      cases h
      by_cases hright : right = hole
      · exact .inl ⟨op, left, right, hself, rfl, hright⟩
      · exact .inr ⟨rfl, op, left, right, hself, rfl, by simp [hkind], hleft, hright⟩
  | binary =>
    simp only [hkind] at h
    cases hget : vocabulary.get? op.token with
    | none => simp [hget] at h
    | some meaning =>
      simp only [hget] at h
      split at h
      · rename_i hleft
        cases h
        exact .inl ⟨op, left, right, hself, rfl, isHole_iff.1 hleft⟩
      · split at h
        · rename_i hright
          cases h
          exact .inl ⟨op, left, right, hself, rfl, isHole_iff.1 hright⟩
        · cases h

variable {locate : Locate m π} {vocabulary : Vocabulary m π φ} {token : String} {side : Side}

theorem hasCause_of_evaluate (hstore : NeverMissing locate vocabulary) {t : Tree ρ}
    (h : CanFail (evaluate locate vocabulary t) (.missingOperand token side)) :
    t.HasCause token side := by
  induction t with
  | hole => cases canFail_throw h
  | leaf x =>
    cases x with
    | literal text value => exact absurd h canFail_pure
    | field reference =>
      rcases canFail_bind h with hlocate | ⟨path, -, hpure⟩
      · exact absurd hlocate (hstore.locate reference token side)
      · exact absurd hpure canFail_pure
  | node op left right ihleft ihright =>
    rw [evaluate] at h
    cases hcheck : check vocabulary op left right with
    | error e =>
      rw [hcheck] at h
      rcases canFail_bind h with hthrow | ⟨meaning, hreturn, -⟩
      · obtain rfl := canFail_throw hthrow
        exact hasCause_of_check hcheck
      · cases eq_of_canReturn_pure hreturn
    | ok meaning =>
      obtain ⟨-, hget, -, -⟩ := check_eq_ok_iff.1 hcheck
      simp only [hcheck, MonadExcept.ofExcept, pure_bind] at h
      -- the failure comes from the left side, from the right side or from the meaning
      rcases canFail_bind h with hleft | ⟨l, -, h⟩
      · refine (ihleft hleft).of_mem_subtrees ?_
        exact mem_subtrees_node_iff.2 (.inr (.inl left.self_mem_subtrees))
      rcases canFail_bind h with hright | ⟨r, -, h⟩
      · refine (ihright hright).of_mem_subtrees ?_
        exact mem_subtrees_node_iff.2 (.inr (.inr right.self_mem_subtrees))
      rcases canFail_bind h with hmeaning | ⟨predicate, -, hpure⟩
      · exact absurd hmeaning (hstore.meaning op.token meaning hget l r token side)
      · exact absurd hpure canFail_pure

/-- Whether the report can come of binding the tree, in some store that leaves it to binding. -/
inductive CanReport (t : Tree ρ) (token : String) (side : Side) : Prop where
  | intro {m : Type → Type} [Monad m] [LawfulMonad m] [MonadAttach m] [LawfulMonadAttach m] {π φ : Type}
      {locate : Locate m π} {vocabulary : Vocabulary m π φ} (store : NeverMissing locate vocabulary)
      (report : CanFail (bind locate vocabulary t) (.refused (.missingOperand token side)))

/-- Where binding reports a missing operand, there is a cause in the tree. -/
theorem hasCause_of_canReport {t : Tree ρ} (h : t.CanReport token side) : t.HasCause token side := by
  obtain ⟨hstore, hreport⟩ := h
  rw [bind_eq_predicateOf] at hreport
  rcases canFail_bind (canFail_ask_refused hreport) with hevaluate | ⟨value, -, hroot⟩
  · exact hasCause_of_evaluate hstore hevaluate
  · -- what is wrong with the value of the root is reported otherwise
    cases value with
    | literal value => cases canFail_throw hroot
    | location path => cases canFail_throw hroot
    | predicate predicate => exact absurd hroot canFail_pure

end Tree

end FilterLang
