import FilterLang.Proofs.Compile.Adjacent

/-!
# Where stray operands are found

A tree says beforehand what merging will do with an operand: it is a stray one exactly if the tree awaits
none, which is seen on the right spine alone, whatever holes are buried elsewhere.  Operators are never
refused in merging, and an operand is awaited behind each of them.  So while an expression is compiled, an
operand is found to be a stray one only directly behind another operand (`Tree.pending_predicts_merge`).
-/

namespace FilterLang

variable {ρ : Type} [Reducer ρ] {g : Grammar ρ}

/-- Only an operand is refused as a stray one, where no operand is awaited. -/
theorem exists_operand_of_read_stray {p : Progress ρ} {piece : List Char} {text : String}
    (h : p.read g piece = .error (.strayOperand text)) :
    ∃ y, g.read? piece = some (.ok (.operand y)) ∧ p.tree.pending = false ∧ text = y.text := by
  rcases Progress.read_eq_error h with ⟨-, he⟩ | hread | ⟨u, hu, hadd⟩
  · cases he
  · -- matching has errors of its own, but never this one
    obtain ⟨-, -, he⟩ := Grammar.read?_eq_error hread
    cases he
  · rw [Progress.add_eq] at hadd
    split at hadd
    · cases hadd
    · rcases except_bind_eq_error_iff.1 hadd with hmerge | ⟨t, -, hpure⟩
      · cases u with
        | operand y =>
          obtain ⟨hfull, htext⟩ := Tree.addOperand_eq_stray_iff.1 hmerge
          exact ⟨y, hu, hfull, htext⟩
        | operator op =>
          obtain ⟨t, ht, -⟩ := Tree.exists_add_operator p.tree op
          rw [ht] at hmerge
          cases hmerge
      · cases hpure

/-- A stray operand stands directly behind another operand, and no operand is awaited there. -/
theorem exists_operands_of_compile_stray {expression text : String}
    (h : compile g expression = .error (.strayOperand text)) :
    ∃ front piece back us x y p, pieces g.accepts [] expression.toList = front ++ piece :: back ∧
      g.ReadsAs front (us ++ [.operand x]) ∧ front.foldlM (Progress.read g) {} = .ok p ∧
      p.tree.pending = false ∧ g.read? piece = some (.ok (.operand y)) ∧ text = y.text := by
  rcases compile_eq_error h with ⟨-, hempty⟩ | ⟨front, piece, back, p, hpieces, hfront, hpiece⟩
  · cases hempty
  · obtain ⟨y, hy, hfull, htext⟩ := exists_operand_of_read_stray hpiece
    obtain ⟨units, hunits, hmerged⟩ := exists_readsAs hfront
    obtain ⟨us, x, rfl⟩ := Tree.endsWithOperand_of_not_pending hfull hmerged
    exact ⟨front, piece, back, us, x, y, p, hpieces, hunits, hfront, hfull, hy, htext⟩

/-- For every tree: an operand is refused as a stray one exactly if the tree awaits none, and then under its
own text; where one is awaited, only a reduction can fail.  An operator is always taken in, and an operand
is awaited behind it.  In compiling, an operand directly behind an operator is therefore never refused as a
stray one; one that is refused so stands directly behind another operand. -/
theorem Tree.pending_predicts_merge :
    (∀ (t : Tree ρ) (x : Operand),
      (∀ text, t.add (.operand x) = .error (.strayOperand text) ↔ t.pending = false ∧ text = x.text) ∧
      (∀ e, t.pending = true → t.add (.operand x) = .error e →
        ∃ operator left right, e = .irreducible operator left right)) ∧
    (∀ (t : Tree ρ) (op : Operator ρ), ∃ u, t.add (.operator op) = .ok u ∧ u.pending = true) ∧
    ∀ (g : Grammar ρ) (expression : String),
      (∀ front piece back us op x p, pieces g.accepts [] expression.toList = front ++ piece :: back →
        g.ReadsAs front (us ++ [.operator op]) → front.foldlM (Progress.read g) {} = .ok p →
        g.read? piece = some (.ok (.operand x)) →
          p.tree.pending = true ∧ ∀ text, p.read g piece ≠ .error (.strayOperand text)) ∧
      (∀ text, compile g expression = .error (.strayOperand text) →
        ∃ front piece back us x y p, pieces g.accepts [] expression.toList = front ++ piece :: back ∧
          g.ReadsAs front (us ++ [.operand x]) ∧ front.foldlM (Progress.read g) {} = .ok p ∧
          p.tree.pending = false ∧ g.read? piece = some (.ok (.operand y)) ∧ text = y.text) := by
  refine ⟨?_, ?_, ?_⟩
  · intro t x
    refine ⟨fun text => addOperand_eq_stray_iff, ?_⟩
    intro e hpending h
    exact irreducible_of_addOperand hpending h
  · intro t op
    exact exists_add_operator t op
  · intro g expression
    constructor
    · intro front piece back us op x p _ hus hfront hx
      have hmerged : ofLexemes (us ++ [.operator op]) = .ok p.tree := foldlM_add_of_readsAs hus hfront
      have hpending : p.tree.pending = true := pending_of_operatorLast hmerged
      refine ⟨hpending, ?_⟩
      intro text hstray
      obtain ⟨y, -, hfull, -⟩ := exists_operand_of_read_stray hstray
      rw [hpending] at hfull
      cases hfull
    · intro text h
      exact exists_operands_of_compile_stray h

/-- Holes that are buried on the left side do not count: `= or {a}` awaits no operand. -/
theorem Tree.pending_predicts_merge_buried :
    let equal : Operator PointRule := ⟨"=", 20, .binary⟩
    let either : Operator PointRule := ⟨"or", 10, .binary⟩
    let a : Operand := .field "a"
    let b : Operand := .field "b"
    let t : Tree PointRule := .node either (.node equal .hole .hole) (.leaf a)
    ofLexemes [.operator equal, .operator either, .operand a] = .ok t ∧
      t.add (.operand b) = .error (.strayOperand "{b}") ∧
      ∃ u, t.add (.operator equal) = .ok u ∧ u.pending = true := by
  intro equal either a b t
  obtain ⟨hoperand, hoperator, -⟩ := @pending_predicts_merge PointRule _
  refine ⟨by decide +kernel, ?_, hoperator t equal⟩
  exact ((hoperand t b).1 "{b}").2 ⟨by decide, by decide⟩

end FilterLang
