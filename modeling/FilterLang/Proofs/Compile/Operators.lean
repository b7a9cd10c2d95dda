import FilterLang.Proofs.Compile.Adjacent
import FilterLang.Proofs.Expr.Regular
import FilterLang.Proofs.Grammar.Settings

/-!
# Where operators come from

An operator of a tree is one that was merged, and an operator that is merged is one that the grammar has a
pattern for.  So a tree holds no operators but those of its grammar, at any time while an expression is
read.
-/

namespace FilterLang

variable {ρ : Type}

namespace Grammar

/-- Whether the operator is one of the grammar. -/
def HasOperator (g : Grammar ρ) (op : Operator ρ) : Prop :=
  .operator op ∈ g.patterns

/-- What is read as an operator is the token of one of the grammar, with blanks around it. -/
theorem token_of_read? {g : Grammar ρ} {cs : List Char} {op : Operator ρ}
    (h : g.read? cs = some (.ok (.operator op))) :
    g.HasOperator op ∧ String.ofList (Text.trim cs) = op.token := by
  obtain ⟨p, hp, hread⟩ := List.exists_of_findSome?_eq_some h
  cases p with
  | integer =>
    obtain ⟨r, -, hr⟩ := Option.map_eq_some_iff.1 hread
    cases r <;> cases hr
  | boolean =>
    obtain ⟨x, -, hx⟩ := Option.map_eq_some_iff.1 hread
    cases hx
  | string quote =>
    obtain ⟨x, -, hx⟩ := Option.map_eq_some_iff.1 hread
    cases hx
  | field =>
    obtain ⟨x, -, hx⟩ := Option.map_eq_some_iff.1 hread
    cases hx
  | operator op' =>
    simp only [Pattern.read?] at hread
    split at hread
    · rename_i htoken
      cases hread
      exact ⟨hp, htoken⟩
    · cases hread

end Grammar

/-- The operators of a grammar with settings are the one that makes decimals and those listed. -/
theorem Settings.hasOperator_iff {s : Settings} {point : ρ} {op : Operator ρ} :
    (s.grammar point).HasOperator op ↔
      (∃ d, s.decimal = some d ∧ op = d.transform [point]) ∨ ∃ o ∈ s.operators, op = o.binary := by
  simp only [Grammar.HasOperator, mem_patterns_iff, reduceCtorEq, and_false, false_or,
    Pattern.operator.injEq, eq_comm (a := op)]

variable [Reducer ρ] {g : Grammar ρ}

theorem Tree.mem_operators_add {t u : Tree ρ} {v : Lexeme ρ} (h : t.add v = .ok u) {op : Operator ρ}
    (hop : op ∈ u.operators) : op ∈ t.operators ∨ v = .operator op := by
  cases v with
  | operand x => exact .inl ((operators_addOperand h).subset hop)
  | operator o =>
    rw [(units_addOperator h).2, List.mem_append, List.mem_singleton] at hop
    rcases hop with hold | rfl
    · exact .inl hold
    · exact .inr rfl

namespace Progress

/-- Whether the tree read so far holds operators of the grammar only. -/
def Within (g : Grammar ρ) (p : Progress ρ) : Prop :=
  ∀ op ∈ p.tree.operators, g.HasOperator op

omit [Reducer ρ] in
theorem within_start (g : Grammar ρ) : Within g {} := by
  intro op hop
  cases hop

theorem within_read {p q : Progress ρ} {piece : List Char} (hp : p.Within g)
    (h : p.read g piece = .ok q) : q.Within g := by
  obtain ⟨u, hu, hadd⟩ := read_eq_ok_iff.1 h
  intro op hop
  rcases Tree.mem_operators_add (add_eq_ok_iff.1 hadd).2.1 hop with hold | rfl
  · exact hp op hold
  · exact (Grammar.token_of_read? hu).1

end Progress

/-- An operator of a tree is one of the units that were merged. -/
theorem Tree.mem_of_mem_operators_ofLexemes {us : List (Lexeme ρ)} {t : Tree ρ} (h : ofLexemes us = .ok t)
    {op : Operator ρ} (hop : op ∈ t.operators) : .operator op ∈ us := by
  induction us using List.reverseRecOn generalizing t with
  | nil =>
    cases h
    cases hop
  | append_singleton us v ih =>
    obtain ⟨front, hfront, hlast⟩ := ofLexemes_append_singleton_eq_ok_iff.1 h
    rw [List.mem_append, List.mem_singleton]
    rcases mem_operators_add hlast hop with hold | hnew
    · exact .inl (ih hfront hold)
    · exact .inr hnew.symm

/-- Every operator of a compiled tree is what some piece of the text is read as. -/
theorem exists_piece_of_compile {expression : String} {t : Tree ρ} (h : compile g expression = .ok t)
    {op : Operator ρ} (hop : op ∈ t.operators) :
    ∃ piece ∈ pieces g.accepts [] expression.toList, g.read? piece = some (.ok (.operator op)) := by
  obtain ⟨us, hus, hmerged⟩ := exists_readsAs_of_compile h
  exact hus.exists_piece (Tree.mem_of_mem_operators_ofLexemes hmerged hop)

theorem hasOperator_of_compile {expression : String} {t : Tree ρ} (h : compile g expression = .ok t) :
    ∀ op ∈ t.operators, g.HasOperator op := by
  intro op hop
  obtain ⟨piece, -, hread⟩ := exists_piece_of_compile h hop
  exact (Grammar.token_of_read? hread).1

/-- To take in pieces is to take in what they are read as. -/
theorem foldlM_read_of_readsAs {read : List (List Char)} {us : List (Lexeme ρ)} (hus : g.ReadsAs read us)
    (p : Progress ρ) : read.foldlM (Progress.read g) p = us.foldlM Progress.add p := by
  induction hus generalizing p with
  | nil => rfl
  | @cons piece u _ _ hu _ ih =>
    have hread : p.read g piece = p.add u := by rw [Progress.read, hu]
    rw [List.foldlM_cons, List.foldlM_cons, hread]
    exact congrArg _ (funext ih)

/-- Units that are read, and of which not too many are operators, are merged. -/
theorem compile_of_readsAs {expression : String} {us : List (Lexeme ρ)} {t : Tree ρ}
    (hus : g.ReadsAs (pieces g.accepts [] expression.toList) us)
    (hcount : us.countP Lexeme.isOperator ≤ maxOperators) (h : Tree.ofLexemes us = .ok t)
    (hthere : t.isHole = false) : compile g expression = .ok t := by
  have hstart : ({} : Progress ρ).operators + us.countP Lexeme.isOperator ≤ maxOperators := by
    rw [Nat.zero_add]
    exact hcount
  have hmerged : us.foldlM Tree.add ({} : Progress ρ).tree = .ok t := h
  rw [compile, foldlM_read_of_readsAs hus, Progress.foldlM_add hstart, hmerged]
  -- only a hole would be refused as empty
  show (if t.isHole = true then _ else _) = _
  rw [hthere]
  rfl

/-- Every tree that comes of compiling is regular. -/
theorem regular_of_compile {expression : String} {t : Tree ρ} (h : compile g expression = .ok t) :
    t.Regular := by
  obtain ⟨us, -, hmerged⟩ := exists_readsAs_of_compile h
  exact Tree.regular_ofLexemes hmerged

end FilterLang
