import FilterLang.Compile
import FilterLang.Proofs.Expr.Shape

/-!
# Taking in units one by one

When an expression that is read in part can take in the next unit, and for which causes it cannot.
-/

namespace FilterLang.Progress

variable {ρ : Type} [Reducer ρ]

/-- The number of operators once the unit is taken in. -/
def operatorsWith (p : Progress ρ) (u : Lexeme ρ) : Nat :=
  p.operators + (if u.isOperator then 1 else 0)

theorem add_eq (p : Progress ρ) (u : Lexeme ρ) :
    p.add u =
      if maxOperators < p.operatorsWith u then .error (.tooManyOperators maxOperators)
      else do return ⟨← p.tree.add u, p.operatorsWith u⟩ := rfl

theorem add_eq_ok_iff {p q : Progress ρ} {u : Lexeme ρ} :
    p.add u = .ok q ↔
      p.operatorsWith u ≤ maxOperators ∧ p.tree.add u = .ok q.tree ∧
        q.operators = p.operatorsWith u := by
  rw [add_eq]
  split
  · rename_i hover
    constructor
    · intro h
      cases h
    · rintro ⟨hle, -, -⟩
      omega
  · rename_i hunder
    rw [except_bind_eq_ok_iff]
    constructor
    · rintro ⟨t, ht, hq⟩
      cases hq
      exact ⟨Nat.not_lt.1 hunder, ht, rfl⟩
    · rintro ⟨-, ht, hn⟩
      refine ⟨q.tree, ht, ?_⟩
      rw [← hn]
      rfl

/-- A unit is refused as an operator too many, or else where merging refuses it. -/
theorem add_eq_error_iff {p : Progress ρ} {u : Lexeme ρ} {e : ExprError} :
    p.add u = .error e ↔
      (maxOperators < p.operatorsWith u ∧ e = .tooManyOperators maxOperators) ∨
        (p.operatorsWith u ≤ maxOperators ∧ p.tree.add u = .error e) := by
  rw [add_eq]
  split
  · rename_i hover
    have hnot : ¬p.operatorsWith u ≤ maxOperators := Nat.not_le.2 hover
    simp [hover, hnot, eq_comm]
  · rename_i hunder
    rw [except_bind_eq_error_iff]
    have hle : p.operatorsWith u ≤ maxOperators := Nat.not_lt.1 hunder
    simp only [hunder, hle, false_and, true_and, false_or, or_iff_left_iff_imp]
    rintro ⟨t, -, hpure⟩
    cases hpure

/-- An operator too many is a cause beside those of merging. -/
theorem eq_or_mergeError_of_add {p : Progress ρ} {u : Lexeme ρ} {e : ExprError}
    (h : p.add u = .error e) :
    (e = .tooManyOperators maxOperators ∧ maxOperators < p.operatorsWith u) ∨ Tree.MergeError e := by
  rcases add_eq_error_iff.1 h with ⟨hover, he⟩ | ⟨-, hadd⟩
  · exact .inl ⟨he, hover⟩
  · exact .inr (Tree.mergeError_add hadd)

theorem isHole_add {p q : Progress ρ} {u : Lexeme ρ} (h : p.add u = .ok q) :
    q.tree.isHole = false :=
  Tree.isHole_add (add_eq_ok_iff.1 h).2.1

/-- As long as there are not too many operators, taking in is merging. -/
theorem foldlM_add {us : List (Lexeme ρ)} {p : Progress ρ}
    (h : p.operators + us.countP Lexeme.isOperator ≤ maxOperators) :
    us.foldlM add p = (us.foldlM Tree.add p.tree).map fun t =>
      ⟨t, p.operators + us.countP Lexeme.isOperator⟩ := by
  induction us generalizing p with
  | nil => rfl
  | cons u rest ih =>
    have hcount : p.operators + (u :: rest).countP Lexeme.isOperator =
        p.operatorsWith u + rest.countP Lexeme.isOperator := by
      rw [List.countP_cons, operatorsWith]
      omega
    rw [hcount] at h ⊢
    have hunder : ¬maxOperators < p.operatorsWith u := by omega
    rw [List.foldlM_cons, List.foldlM_cons, add_eq, if_neg hunder]
    cases p.tree.add u with
    | error e => rfl
    | ok t => exact ih h

/-- Units are taken in one by one if they can be merged and not too many of them are operators. -/
theorem foldlM_add_eq_ok_iff {us : List (Lexeme ρ)} {p q : Progress ρ} (hp : p.operators ≤ maxOperators) :
    us.foldlM add p = .ok q ↔
      us.foldlM Tree.add p.tree = .ok q.tree ∧ q.operators = p.operators + us.countP Lexeme.isOperator ∧
        q.operators ≤ maxOperators := by
  induction us generalizing p with
  | nil =>
    obtain ⟨tree, operators⟩ := p
    obtain ⟨tree', operators'⟩ := q
    show Except.ok _ = Except.ok _ ↔ Except.ok _ = Except.ok _ ∧ _
    simp only [Except.ok.injEq, mk.injEq, List.countP_nil, Nat.add_zero]
    constructor
    · rintro ⟨htree, rfl⟩
      exact ⟨htree, rfl, hp⟩
    · rintro ⟨htree, hcount, -⟩
      exact ⟨htree, hcount.symm⟩
  | cons u rest ih =>
    have hcount : p.operators + (u :: rest).countP Lexeme.isOperator =
        p.operatorsWith u + rest.countP Lexeme.isOperator := by
      rw [List.countP_cons, operatorsWith]
      omega
    simp only [List.foldlM_cons, except_bind_eq_ok_iff, hcount]
    constructor
    · rintro ⟨next, hnext, hrest⟩
      obtain ⟨hroom, hmerged, hoperators⟩ := add_eq_ok_iff.1 hnext
      rw [← hoperators] at hroom ⊢
      obtain ⟨htree, hq⟩ := (ih hroom).1 hrest
      exact ⟨⟨next.tree, hmerged, htree⟩, hq⟩
    · rintro ⟨⟨t, hmerged, htree⟩, hoperators, hlimit⟩
      have hroom : p.operatorsWith u ≤ maxOperators := by omega
      exact ⟨⟨t, p.operatorsWith u⟩, add_eq_ok_iff.2 ⟨hroom, hmerged, rfl⟩,
        (ih hroom).2 ⟨htree, hoperators, hlimit⟩⟩

/-! ## The next piece -/

theorem read_eq_ok_iff {g : Grammar ρ} {p q : Progress ρ} {piece : List Char} :
    p.read g piece = .ok q ↔ ∃ u, g.read? piece = some (.ok u) ∧ p.add u = .ok q := by
  unfold read
  cases hread : g.read? piece with
  | none => simp
  | some r => cases r <;> simp

/-- A piece is refused because nothing matches it, because what matches it is an error, or because its
unit cannot be taken in. -/
theorem read_eq_error {g : Grammar ρ} {p : Progress ρ} {piece : List Char} {e : ExprError}
    (h : p.read g piece = .error e) :
    (g.read? piece = none ∧ e = .unmatched (String.ofList piece)) ∨ g.read? piece = some (.error e) ∨
      ∃ u, g.read? piece = some (.ok u) ∧ p.add u = .error e := by
  unfold read at h
  cases hread : g.read? piece with
  | none =>
    rw [hread] at h
    cases h
    exact .inl ⟨rfl, rfl⟩
  | some r =>
    rw [hread] at h
    cases r with
    | error e' =>
      cases h
      exact .inr (.inl rfl)
    | ok u => exact .inr (.inr ⟨u, rfl, h⟩)

theorem isHole_read {g : Grammar ρ} {p q : Progress ρ} {piece : List Char}
    (h : p.read g piece = .ok q) : q.tree.isHole = false := by
  obtain ⟨u, -, hadd⟩ := read_eq_ok_iff.1 h
  exact isHole_add hadd

end FilterLang.Progress
