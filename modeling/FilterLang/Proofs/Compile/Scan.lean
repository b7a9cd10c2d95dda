import FilterLang.Proofs.Compile.Progress
import FilterLang.Proofs.Grammar.Reading
import FilterLang.Proofs.Grammar.Tiling

/-!
# What compiling takes in

Compiling reads the pieces of an expression from the left until it is through or a piece is refused.
So what it has read by then tiles the expression up to there, whatever the grammar may be, and the way
an expression is refused says how far the reading went (`compile_tiling`).
-/

namespace FilterLang

open Text

variable {ρ : Type} [Reducer ρ]

theorem compile_eq_ok {g : Grammar ρ} {expression : String} {t : Tree ρ}
    (h : compile g expression = .ok t) :
    ∃ p, (pieces g.accepts [] expression.toList).foldlM (Progress.read g) {} = .ok p ∧ p.tree = t := by
  obtain ⟨p, hfold, hhole⟩ := except_bind_eq_ok_iff.1 h
  split at hhole
  · cases hhole
  · cases hhole
    exact ⟨p, hfold, rfl⟩

/-- Where a piece is read, there is a tree. -/
theorem isHole_foldlM_read {g : Grammar ρ} {piece : List Char} {rest : List (List Char)}
    {p q : Progress ρ} (h : (piece :: rest).foldlM (Progress.read g) p = .ok q) :
    q.tree.isHole = false := by
  rw [List.foldlM_cons] at h
  obtain ⟨first, hfirst, hrest⟩ := except_bind_eq_ok_iff.1 h
  have hstart : first.tree.isHole = false := Progress.isHole_read hfirst
  have hstep : ∀ (p : Progress ρ) (piece : List Char) (q : Progress ρ), p.tree.isHole = false →
      p.read g piece = .ok q → q.tree.isHole = false := fun _ _ _ _ hread => Progress.isHole_read hread
  exact foldlM_preserves hstep hstart hrest

/-- An expression is refused as empty if it has no piece, and otherwise for the first piece that is
refused. -/
theorem compile_eq_error {g : Grammar ρ} {expression : String} {e : ExprError}
    (h : compile g expression = .error e) :
    (pieces g.accepts [] expression.toList = [] ∧ e = .empty) ∨
      ∃ front piece back p, pieces g.accepts [] expression.toList = front ++ piece :: back ∧
        front.foldlM (Progress.read g) {} = .ok p ∧ p.read g piece = .error e := by
  rcases except_bind_eq_error_iff.1 h with hfold | ⟨p, hfold, hhole⟩
  · obtain ⟨front, piece, back, p, heq, hfront, hpiece⟩ := foldlM_eq_error hfold
    exact .inr ⟨front, piece, back, p, heq, hfront, hpiece⟩
  · split at hhole
    · rename_i hnone
      cases hhole
      cases hpieces : pieces g.accepts [] expression.toList with
      | nil => exact .inl ⟨rfl, rfl⟩
      | cons piece rest =>
        rw [hpieces] at hfold
        rw [isHole_foldlM_read hfold] at hnone
        cases hnone
    · cases hhole

/-- No piece is refused as empty. -/
theorem ne_empty_of_read {g : Grammar ρ} {p : Progress ρ} {piece : List Char} {e : ExprError}
    (h : p.read g piece = .error e) : e ≠ .empty := by
  rintro rfl
  rcases Progress.read_eq_error h with ⟨-, he⟩ | hread | ⟨u, -, hadd⟩
  · cases he
  · obtain ⟨-, -, he⟩ := Grammar.read?_eq_error hread
    cases he
  · rcases Progress.eq_or_mergeError_of_add hadd with ⟨he, -⟩ | he
    · cases he
    · cases he

theorem compile_eq_empty_iff {g : Grammar ρ} {expression : String} :
    compile g expression = .error .empty ↔ Blank expression.toList := by
  have hpieces : pieces g.accepts [] expression.toList = [] ↔ Blank expression.toList :=
    pieces_eq_nil_iff
  constructor
  · intro h
    rcases compile_eq_error h with ⟨hnone, -⟩ | ⟨front, piece, back, p, -, -, hpiece⟩
    · exact hpieces.1 hnone
    · exact absurd rfl (ne_empty_of_read hpiece)
  · intro h
    rw [compile, hpieces.2 h]
    rfl

/-- Only a piece that nothing matches is reported as unmatched. -/
theorem read?_eq_none_of_unmatched {g : Grammar ρ} {p : Progress ρ} {piece : List Char} {text : String}
    (h : p.read g piece = .error (.unmatched text)) : g.read? piece = none ∧ piece = text.toList := by
  rcases Progress.read_eq_error h with ⟨hnone, htext⟩ | hread | ⟨u, -, hadd⟩
  · rw [ExprError.unmatched.injEq] at htext
    exact ⟨hnone, ofList_eq_iff.1 htext.symm⟩
  · obtain ⟨-, -, he⟩ := Grammar.read?_eq_error hread
    cases he
  · rcases Progress.eq_or_mergeError_of_add hadd with ⟨he, -⟩ | he
    · cases he
    · cases he

/-- The pieces that compiling takes in tile the expression: all of it where there is a tree, and where a
piece is refused the part in front of that piece, which is the next one there.  An expression is empty
if and only if it is blank.  A text that is unmatched is the end of the expression, and everything in
front of it is made of blanks and of pieces that were read and merged. -/
theorem compile_tiling (g : Grammar ρ) (expression : String) :
    (∀ t, compile g expression = .ok t →
      ∃ handed p, Tiling g.accepts expression.toList handed [] ∧
        handed.foldlM (Progress.read g) {} = .ok p ∧ p.tree = t) ∧
    (∀ e, compile g expression = .error e → e ≠ .empty →
      ∃ handed p piece rest, Tiling g.accepts expression.toList handed (piece ++ rest) ∧
        handed.foldlM (Progress.read g) {} = .ok p ∧
        NextPiece g.accepts piece rest ∧ p.read g piece = .error e) ∧
    (compile g expression = .error .empty ↔ Blank expression.toList) ∧
    (∀ text, compile g expression = .error (.unmatched text) →
      ∃ before handed p, expression.toList = before ++ text.toList ∧
        (∃ c ∈ text.toList.head?, isBlank c = false) ∧ g.accepts text.toList = false ∧
        Tiling g.accepts before handed [] ∧ handed.foldlM (Progress.read g) {} = .ok p) := by
  have htiling := tiling_pieces g.accepts expression.toList
  refine ⟨?_, ?_, compile_eq_empty_iff, ?_⟩
  · intro t ht
    obtain ⟨p, hfold, htree⟩ := compile_eq_ok ht
    exact ⟨_, p, htiling, hfold, htree⟩
  · intro e he hne
    rcases compile_eq_error he with ⟨-, hempty⟩ | ⟨front, piece, back, p, heq, hfront, hpiece⟩
    · exact absurd hempty hne
    · rw [heq] at htiling
      obtain ⟨rest, hcut, hnext, -⟩ := htiling.split
      exact ⟨front, p, piece, rest, hcut, hfront, hnext, hpiece⟩
  · intro text htext
    rcases compile_eq_error htext with ⟨-, hempty⟩ | ⟨front, piece, back, p, heq, hfront, hpiece⟩
    · cases hempty
    · obtain ⟨hnone, rfl⟩ := read?_eq_none_of_unmatched hpiece
      have hrefused : g.accepts text.toList = false := by rw [Grammar.accepts, hnone]; rfl
      rw [heq] at htiling
      obtain ⟨rest, hcut, hnext, -⟩ := htiling.split
      -- in front of a character the piece would have to be accepted
      have hend : rest = [] := by
        cases rest with
        | nil => rfl
        | cons d rest =>
          have haccepted := (hnext.stops d rfl).1
          rw [hrefused] at haccepted
          cases haccepted
      obtain ⟨before, hbefore, htiled⟩ := hcut.exists_consumed
      rw [hend, List.append_nil] at hbefore
      exact ⟨before, front, p, hbefore, hnext.opens, hrefused, htiled, hfront⟩

/-- An unmatched text runs to the end of the expression, whatever could have been read in it. -/
example : compile Grammar.standard "{a} = @ {b}" = .error (.unmatched "@ {b}") := by decide +kernel

end FilterLang
