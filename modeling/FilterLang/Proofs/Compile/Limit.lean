import FilterLang.Proofs.Compile.Adjacent
import FilterLang.Proofs.Expr.Nesting
import FilterLang.Proofs.Table.Evaluation

/-!
# The limit on operators

An expression is refused for its operators exactly if one more than the limit is met before anything else
is wrong.  Up to there the tree never has more operators than were met, whatever was moved or reduced in it,
so it is never deeper than the limit and one (`compile_withinLimit`).  What is done with a tree nests as
many calls, and the condition it is bound to is no deeper than the tree.
-/

namespace FilterLang

variable {ρ : Type}

/-! ## Conditions -/

/-- The most conditions that lie within each other. -/
def Condition.depth : Condition → Nat
  | equal _ _ => 1
  | isTrue _ => 1
  | and left right => max left.depth right.depth + 1
  | or left right => max left.depth right.depth + 1

/-- A condition is no deeper than the tree it stands for. -/
theorem Table.depth_of_evaluate {t : Table} {tree : Tree ρ} {b : TableOperand} {c : Condition}
    (h : t.evaluate Table.vocabulary tree = .ok b) (hc : b.condition? = some c) :
    c.depth ≤ tree.depth := by
  induction tree generalizing b c with
  | hole => cases h
  | leaf x =>
    cases x with
    | literal text value =>
      cases h
      cases value <;> cases hc
      exact Nat.le_refl _
    | field reference =>
      obtain ⟨index, -, rfl⟩ := Table.evaluate_field_eq_ok_iff.1 h
      cases hc
      exact Nat.le_refl _
  | node op left right ihleft ihright =>
    obtain ⟨-, -, -, meaning, l, r, condition, hget, hl, hr, hmeaning, rfl⟩ :=
      Table.evaluate_node_eq_ok_iff.1 h
    cases hc
    rcases Table.meaning_eq_ok hget hmeaning with
      ⟨-, a, b, -, -, rfl⟩ | ⟨-, a, b, ha, hb, rfl⟩ | ⟨-, a, b, ha, hb, rfl⟩
    · simp [Condition.depth, Tree.depth]
    all_goals
      have hleft := ihleft hl ha
      have hright := ihright hr hb
      simp only [Condition.depth, Tree.depth]
      omega

theorem Table.depth_of_bind {t : Table} {tree : Tree ρ} {c : Condition}
    (h : t.bind Table.vocabulary tree = .ok c) : c.depth ≤ tree.depth :=
  Table.depth_of_evaluate (Table.bind_eq_ok_iff.1 h) rfl

/-! ## Counting operators -/

variable [Reducer ρ] {g : Grammar ρ} {read : List (List Char)} {us : List (Lexeme ρ)}
  {p q : Progress ρ}

/-- The count is of all the operators met. -/
theorem operators_of_foldlM_read (hus : g.ReadsAs read us)
    (h : read.foldlM (Progress.read g) p = .ok q) :
    q.operators = p.operators + us.countP Lexeme.isOperator := by
  induction hus generalizing p with
  | nil =>
    cases h
    rfl
  | cons hu _ ih =>
    rw [List.foldlM_cons] at h
    obtain ⟨next, hnext, hrest⟩ := except_bind_eq_ok_iff.1 h
    obtain ⟨u, hu', hadd⟩ := Progress.read_eq_ok_iff.1 hnext
    rw [hu] at hu'
    cases hu'
    rw [ih hrest, (Progress.add_eq_ok_iff.1 hadd).2.2, Progress.operatorsWith, List.countP_cons]
    omega

theorem operators_eq_countP (hus : g.ReadsAs read us)
    (h : read.foldlM (Progress.read g) {} = .ok p) : p.operators = us.countP Lexeme.isOperator := by
  have hcount := operators_of_foldlM_read hus h
  rw [Nat.zero_add] at hcount
  exact hcount

namespace Progress

/-- The tree has no more operators than were met. -/
theorem length_operators_read {piece : List Char} (hp : p.tree.operators.length ≤ p.operators)
    (h : p.read g piece = .ok q) : q.tree.operators.length ≤ q.operators := by
  obtain ⟨u, -, hadd⟩ := read_eq_ok_iff.1 h
  obtain ⟨-, hmerged, hcount⟩ := add_eq_ok_iff.1 hadd
  have hlength := Tree.length_operators_add hmerged
  rw [hcount, operatorsWith]
  omega

theorem length_operators_foldlM_read (h : read.foldlM (Progress.read g) {} = .ok p) :
    p.tree.operators.length ≤ p.operators := by
  have hstep : ∀ (p : Progress ρ) (piece : List Char) (q : Progress ρ),
      p.tree.operators.length ≤ p.operators → p.read g piece = .ok q →
        q.tree.operators.length ≤ q.operators := fun _ _ _ => length_operators_read
  exact foldlM_preserves hstep (Nat.le_refl _) h

/-- The limit is exceeded by nothing but an operator for which there is no room. -/
theorem read_eq_tooManyOperators_iff {piece : List Char} {limit : Nat} :
    p.read g piece = .error (.tooManyOperators limit) ↔
      limit = maxOperators ∧
        ∃ u, g.read? piece = some (.ok u) ∧ maxOperators < p.operatorsWith u := by
  constructor
  · intro h
    rcases read_eq_error h with ⟨-, he⟩ | hread | ⟨u, hu, hadd⟩
    · cases he
    · obtain ⟨-, -, he⟩ := Grammar.read?_eq_error hread
      cases he
    · rcases eq_or_mergeError_of_add hadd with ⟨he, hover⟩ | he
      · cases he
        exact ⟨rfl, u, hu, hover⟩
      · cases he
  · rintro ⟨rfl, u, hu, hover⟩
    rw [Progress.read, hu]
    show p.add u = _
    rw [add_eq, if_pos hover]

end Progress

/-! ## When the limit is exceeded -/

/-- An operator is met when as many as are allowed have been met, and all in front of it was taken in. -/
def Grammar.ExceedsOperators (g : Grammar ρ) (expression : String) : Prop :=
  ∃ front piece back us op p, pieces g.accepts [] expression.toList = front ++ piece :: back ∧
    g.ReadsAs front us ∧ front.foldlM (Progress.read g) {} = .ok p ∧
    us.countP Lexeme.isOperator = maxOperators ∧ g.read? piece = some (.ok (.operator op))

theorem compile_eq_tooManyOperators_iff {expression : String} {limit : Nat} :
    compile g expression = .error (.tooManyOperators limit) ↔
      limit = maxOperators ∧ g.ExceedsOperators expression := by
  constructor
  · intro h
    rcases compile_eq_error h with ⟨-, he⟩ | ⟨front, piece, back, p, hpieces, hfront, hpiece⟩
    · cases he
    · obtain ⟨rfl, u, hu, hover⟩ := Progress.read_eq_tooManyOperators_iff.1 hpiece
      obtain ⟨us, hus, -⟩ := exists_readsAs hfront
      have hcount := operators_eq_countP hus hfront
      have hle := operators_le_of_foldlM_read hfront
      refine ⟨rfl, front, piece, back, us, ?_⟩
      cases u with
      | operand x =>
        -- the limit was not exceeded in front of it, and an operand does not count
        exact absurd hover (Nat.not_lt.2 hle)
      | operator op =>
        have hfull : maxOperators < p.operators + 1 := hover
        exact ⟨op, p, hpieces, hus, hfront, by omega, hu⟩
  · rintro ⟨rfl, front, piece, back, us, op, p, hpieces, hus, hfront, hfull, hop⟩
    have hcount := operators_eq_countP hus hfront
    have hover : maxOperators < p.operatorsWith (.operator op) := by
      show maxOperators < p.operators + 1
      omega
    exact compile_eq_error_of_read hpieces hfront
      (Progress.read_eq_tooManyOperators_iff.2 ⟨rfl, .operator op, hop, hover⟩)

/-! ## What the limit keeps small -/

/-- What holds of a tree for which this many operators were met: it has no more operators, and neither it
nor what is done with it is deeper than the limit on operators and one. -/
structure Tree.WithinLimit (met : Nat) (t : Tree ρ) : Prop where
  met_le : met ≤ maxOperators
  operators_le : t.operators.length ≤ met
  depth_le : t.depth ≤ maxOperators + 1
  shown : showing.within (maxOperators + 1) t = some t.chars
  operand_added : ∀ x, (addingOperand x).within (maxOperators + 1) t = some (t.pending, addOperand x t)
  /-- One call is left for the operand of a leaf, which is put into the operator. -/
  operator_added : ∀ op, met < maxOperators →
    (addingOperator op).within maxOperators t = some (addOperator op hole hole t)
  walked : ∀ {m : Type → Type} [Monad m] {π φ : Type} (locate : Locate m π)
    (vocabulary : Vocabulary m π φ),
    (walking locate vocabulary).within (maxOperators + 1) t = some (walk locate vocabulary t)
  bound : ∀ (table : Table) (c : Condition), table.bind Table.vocabulary t = .ok c →
    c.depth ≤ maxOperators + 1

theorem Tree.withinLimit_of_length_le {met : Nat} {t : Tree ρ} (hmet : met ≤ maxOperators)
    (hlength : t.operators.length ≤ met) : t.WithinLimit met := by
  have hdepth : t.depth ≤ maxOperators + 1 := by
    have hle := t.depth_le
    omega
  refine ⟨hmet, hlength, hdepth, ?_, ?_, ?_, ?_, ?_⟩
  · rw [Recursion.within_of_depth_le _ hdepth, run_showing]
  · intro x
    rw [Recursion.within_of_depth_le _ hdepth, run_addingOperand]
  · intro op hroom
    have hless : t.depth ≤ maxOperators := by
      have hle := t.depth_le
      omega
    rw [Recursion.within_of_depth_le _ hless, run_addingOperator]
  · intro m _ π φ locate vocabulary
    rw [Recursion.within_of_depth_le _ hdepth, run_walking]
  · intro table c hc
    exact (Table.depth_of_bind hc).trans hdepth

theorem withinLimit_of_foldlM_read (h : read.foldlM (Progress.read g) {} = .ok p) :
    ∃ us, g.ReadsAs read us ∧ p.tree.WithinLimit (us.countP Lexeme.isOperator) := by
  obtain ⟨us, hus, -⟩ := exists_readsAs h
  refine ⟨us, hus, ?_⟩
  rw [← operators_eq_countP hus h]
  exact Tree.withinLimit_of_length_le (operators_le_of_foldlM_read h)
    (Progress.length_operators_foldlM_read h)

/-- An expression has too many operators exactly if one more than the limit is met before anything else is
wrong.  Before and after every unit, and in the end, the tree is within the limit, and so is what is
done with it. -/
theorem compile_withinLimit (g : Grammar ρ) (expression : String) :
    (∀ limit, compile g expression = .error (.tooManyOperators limit) ↔
      limit = maxOperators ∧ g.ExceedsOperators expression) ∧
    (∀ front p, front <+: pieces g.accepts [] expression.toList →
      front.foldlM (Progress.read g) {} = .ok p →
        ∃ us, g.ReadsAs front us ∧ p.tree.WithinLimit (us.countP Lexeme.isOperator)) ∧
    (∀ t, compile g expression = .ok t →
      ∃ us, g.ReadsAs (pieces g.accepts [] expression.toList) us ∧
        t.WithinLimit (us.countP Lexeme.isOperator)) := by
  refine ⟨fun _ => compile_eq_tooManyOperators_iff, ?_, ?_⟩
  · intro front p _ hfront
    exact withinLimit_of_foldlM_read hfront
  · intro t ht
    obtain ⟨p, hfold, rfl⟩ := compile_eq_ok ht
    exact withinLimit_of_foldlM_read hfold

/-- Two operators are met, and one of them makes a decimal and is gone. -/
example : (compile Grammar.standard "1.5 = {a}").toOption.map (fun t => (t.operators.length, t.depth)) =
    some (1, 2) := by decide +kernel

end FilterLang
