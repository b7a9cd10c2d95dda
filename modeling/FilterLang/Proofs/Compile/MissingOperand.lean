import FilterLang.Proofs.Binding.MissingOperand
import FilterLang.Proofs.Compile.Operators
import FilterLang.Proofs.Table.Evaluation

/-!
# Operands that compiled expressions miss

An expression that is compiled may still lack operands, and binding reports the first operator that does.

Below a transforming operator that has stayed in the tree something is missing, so a tree in which nothing is
missing has no such operator and binding does not report one (`compile_leftover_transforms`).

The report names an operator and a side.  With the settings of a grammar it is true of some operator in the tree,
provided that no other operator weighs more than the one that makes decimals
(`Settings.reportsTruly_of_pointTightest`).  A heavier one can sink into the right side of a decimal point; then
the point is said to lack what stands there (`Settings.not_reportsTruly_of_heavier`).
-/

namespace FilterLang

open FilterLang.Tree

/-! ## Tables -/

theorem canFail_id_iff {α ε : Type} {x : ExceptT ε Id α} {e : ε} : CanFail x e ↔ x.run.run = .error e :=
  Iff.rfl

/-- A table refuses fields it does not have and operands that do not fit, and nothing else. -/
theorem Table.neverMissing (t : Table) : NeverMissing t.locate Table.vocabulary := by
  constructor
  · intro name token side h
    rw [canFail_id_iff, Table.locate] at h
    split at h <;> cases h
  · intro operator meaning hget l r token side h
    have hcombine : ∀ {α : Type} (name : String) (take? : TableOperand → Option α)
        (make : α → α → Condition),
        ¬CanFail (Table.combine name take? make l r) (.missingOperand token side) := by
      intro α name take? make hfail
      rw [canFail_id_iff, Table.combine] at hfail
      split at hfail <;> cases hfail
    rw [Table.get?_vocabulary] at hget
    split at hget
    · cases hget
      exact hcombine _ _ _ h
    · split at hget
      · cases hget
        exact hcombine _ _ _ h
      · split at hget <;> cases hget
        exact hcombine _ _ _ h

theorem Table.canReport {ρ : Type} (table : Table) {t : Tree ρ} {token : String} {side : Side}
    (h : table.bind Table.vocabulary t = .error (.refused (.missingOperand token side))) :
    t.CanReport token side :=
  .intro table.neverMissing h

/-! ## Leftover operators -/

section Leftover

variable {ρ : Type} [Reducer ρ]

/-- In a compiled tree no operand stands on the right side of a transforming operator, so below each of them an
operand is missing.  If none is missing in the whole tree, all its operators are binary, and binding never
reports a missing operand, unless the store itself does. -/
theorem compile_leftover_transforms {g : Grammar ρ} {expression : String} {t : Tree ρ}
    (h : compile g expression = .ok t) :
    (∀ op left right, node op left right ∈ t.subtrees → op.kind ≠ .binary →
      right.operands = [] ∧ hole ∈ (node op left right).subtrees) ∧
    (hole ∉ t.subtrees →
      (∀ op ∈ t.operators, op.kind = .binary) ∧ ∀ token side, ¬t.CanReport token side) := by
  have hregular : t.Regular := regular_of_compile h
  refine ⟨fun op left right hmem hkind => hole_mem_of_transform hregular hmem hkind, ?_⟩
  intro hfull
  have hbinary : ∀ op ∈ t.operators, op.kind = .binary := fun op hop =>
    binary_of_hole_not_mem hregular hfull hop
  refine ⟨hbinary, ?_⟩
  intro token side hreport
  rcases hasCause_of_canReport hreport with hlacks | ⟨-, op, left, right, hmem, -, hkind, -⟩
  · exact hfull (hole_mem_of_lacks hlacks)
  · exact hkind (hbinary op (mem_operators_iff.2 ⟨left, right, hmem⟩))

end Leftover

/-- In `1.~`, where `~` weighs more than the point, the point stays, and both sides of `~` are missing.  In
`{a} = 1.5` nothing is missing: the point is gone, and a table does not report it. -/
theorem compile_leftover_transforms_point :
    let heavier : Settings := { operators := [⟨"~", 40⟩] }
    let point : Operator PointRule := ⟨".", 30, .transform [.join]⟩
    let tilde : Operator PointRule := ⟨"~", 40, .binary⟩
    let t : Tree PointRule := node point (leaf (.literal "1" (.integer 1))) (node tilde hole hole)
    let equal : Operator PointRule := ⟨"=", 20, .binary⟩
    let u : Tree PointRule :=
      node equal (leaf (.field "a")) (leaf (.literal "1.5" (.decimal ⟨false, 15, 1, by decide, by decide⟩)))
    let table : Table := { columns := ["a"] }
    compile (heavier.grammar PointRule.join) "1.~" = .ok t ∧ point.kind ≠ .binary ∧
      (node tilde hole hole).operands = [] ∧ hole ∈ t.subtrees ∧
      compile Grammar.standard "{a} = 1.5" = .ok u ∧ hole ∉ u.subtrees ∧
      (∀ op ∈ u.operators, op.kind = .binary) ∧
      ∀ token side, table.bind Table.vocabulary u ≠ .error (.refused (.missingOperand token side)) := by
  intro heavier point tilde t equal u table
  have hleftover : compile (heavier.grammar PointRule.join) "1.~" = .ok t := by decide +kernel
  have hkind : point.kind ≠ .binary := by decide
  have hfull : compile Grammar.standard "{a} = 1.5" = .ok u := by decide +kernel
  have hnone : hole ∉ u.subtrees := by decide
  obtain ⟨hoperands, hmissing⟩ :=
    (compile_leftover_transforms hleftover).1 point _ _ t.self_mem_subtrees hkind
  obtain ⟨hbinary, hreport⟩ := (compile_leftover_transforms hfull).2 hnone
  refine ⟨hleftover, hkind, hoperands, hmissing, hfull, hnone, hbinary, ?_⟩
  intro token side hbind
  exact hreport token side (table.canReport hbind)

/-! ## Reports -/

namespace Settings

/-- Whether no operator with another token weighs more than the operator that makes decimals. -/
def PointTightest (s : Settings) : Prop :=
  ∀ d, s.decimal = some d → ∀ o ∈ s.operators, o.token ≠ d.token → o.weight ≤ d.weight

/-- Whether every report of a missing operand is true of the tree: some operator in it has the token that is
named and lacks its operand on the side that is named. -/
def ReportsTruly (s : Settings) : Prop :=
  ∀ expression t, compile (s.grammar PointRule.join) expression = .ok t →
    ∀ token side, t.CanReport token side → t.Lacks token side

/-- Whether the token is that of the operator that makes decimals, and this operator stands in the tree with
something on both sides: on the right, heavier operators without operands. -/
def SunkBehindPoint (s : Settings) (t : Tree PointRule) (token : String) : Prop :=
  ∃ d l r, s.decimal = some d ∧ d.token = token ∧ node (d.transform [.join]) l r ∈ t.subtrees ∧
    l ≠ hole ∧ r ≠ hole ∧ r.operands = [] ∧
    ∀ op ∈ r.operators, ∃ o ∈ s.operators, op = o.binary ∧ d.weight < o.weight

/-- With the settings of a grammar, no other operator can be crowded. -/
theorem sunkBehindPoint_of_crowded {s : Settings} {expression : String} {t : Tree PointRule}
    (h : compile (s.grammar .join) expression = .ok t) {token : String} (hcrowded : t.Crowded token) :
    s.SunkBehindPoint t token := by
  obtain ⟨op, l, r, hmem, rfl, hkind, hl, hr⟩ := hcrowded
  have hproper := proper_of_mem_subtrees (regular_of_compile h) hmem
  have hof : ∀ o ∈ t.operators, (s.grammar PointRule.join).HasOperator o := hasOperator_of_compile h
  rcases hasOperator_iff.1 (hof op (mem_operators_iff.2 ⟨l, r, hmem⟩)) with ⟨d, hd, rfl⟩ | ⟨o, -, rfl⟩
  · refine ⟨d, l, r, hd, rfl, hmem, hl, hr, hproper.reduced hkind, ?_⟩
    intro op hop
    have hlt : d.weight < op.weight := hproper.lt_right op hop
    obtain ⟨l', r', hbelow⟩ := mem_operators_iff.1 hop
    have hmem' : node op l' r' ∈ t.subtrees :=
      subtrees_subset hmem (mem_subtrees_node_iff.2 (.inr (.inr hbelow)))
    rcases hasOperator_iff.1 (hof op (mem_operators_iff.2 ⟨l', r', hmem'⟩)) with
      ⟨d', hd', rfl⟩ | ⟨o, ho, rfl⟩
    · -- the operator that makes decimals does not outweigh itself
      rw [hd] at hd'
      cases hd'
      exact absurd hlt (UInt32.lt_irrefl _)
    · exact ⟨o, ho, rfl, hlt⟩
  · exact absurd rfl hkind

/-- If only operators with the same token weigh more, then one of these lacks its right side. -/
theorem lacks_of_sunkBehindPoint {s : Settings} (hs : s.PointTightest) {t : Tree PointRule}
    {token : String} (h : s.SunkBehindPoint t token) : t.Lacks token .right := by
  obtain ⟨d, l, r, hd, rfl, hmem, -, hr, hnone, hheavier⟩ := h
  -- nothing on the right side is an operand, so its right spine ends with an operator
  obtain ⟨op, left, hlast⟩ := exists_right_hole hnone hr
  obtain ⟨o, ho, rfl, hlt⟩ := hheavier op (mem_operators_iff.2 ⟨left, hole, hlast⟩)
  have htoken : o.token = d.token := by
    by_contra hne
    exact UInt32.not_lt.2 (hs d hd o ho hne) hlt
  have hbelow : node o.binary left hole ∈ t.subtrees :=
    subtrees_subset hmem (mem_subtrees_node_iff.2 (.inr (.inr hlast)))
  exact ⟨o.binary, left, hole, hbelow, htoken, rfl⟩

/-- A report that is not true is one of the operator that makes decimals, and of what is behind it. -/
theorem lacks_or_sunk_of_canReport {s : Settings} {expression : String} {t : Tree PointRule}
    (h : compile (s.grammar .join) expression = .ok t) {token : String} {side : Side}
    (hreport : t.CanReport token side) : t.Lacks token side ∨ side = .right ∧ s.SunkBehindPoint t token := by
  rcases hasCause_of_canReport hreport with hlacks | ⟨hside, hcrowded⟩
  · exact .inl hlacks
  · exact .inr ⟨hside, sunkBehindPoint_of_crowded h hcrowded⟩

theorem reportsTruly_of_pointTightest {s : Settings} (hs : s.PointTightest) : s.ReportsTruly := by
  intro expression t h token side hreport
  rcases lacks_or_sunk_of_canReport h hreport with hlacks | ⟨rfl, hsunk⟩
  · exact hlacks
  · exact lacks_of_sunkBehindPoint hs hsunk

/-- The tree of an operand, an operator that reduces, and a heavier operator. -/
theorem ofLexemes_sunk {ρ : Type} [Reducer ρ] {x : Operand} {op o : Operator ρ}
    (hlt : op.weight < o.weight) :
    ofLexemes [.operand x, .operator op, .operator o] = .ok (node op (leaf x) (node o hole hole)) := by
  have hfirst : (leaf x).add (.operator op) = .ok (node op (leaf x) hole) := addOperator_leaf op x
  have hsecond : (node op (leaf x) hole).add (.operator o) = .ok (node op (leaf x) (node o hole hole)) :=
    addOperator_node_of_lt hlt rfl
  have hpair : ofLexemes ([.operand x] ++ [.operator op]) = .ok (node op (leaf x) hole) :=
    ofLexemes_append_singleton_eq_ok_iff.2 ⟨leaf x, rfl, hfirst⟩
  exact ofLexemes_append_singleton_eq_ok_iff.2 ⟨node op (leaf x) hole, hpair, hsecond⟩

/-- Of its two operators only the second lacks an operand. -/
theorem not_lacks_sunk {ρ : Type} {x : Operand} {op o : Operator ρ} (htoken : o.token ≠ op.token) :
    ¬(node op (leaf x) (node o hole hole)).Lacks op.token .right := by
  rintro ⟨op', left, right, hmem, hop, hhole⟩
  simp only [subtrees, List.mem_cons, List.mem_append, List.not_mem_nil, or_false, node.injEq,
    reduceCtorEq, false_or] at hmem
  rcases hmem with ⟨rfl, rfl, rfl⟩ | ⟨rfl, rfl, rfl⟩
  · cases hhole
  · exact htoken hop

/-- Such an expression makes binding report the first operator, which is not true. -/
theorem not_reportsTruly_of_heavier {s : Settings} {expression : String} {x : Operand}
    {d o : OperatorSetting} (hlt : d.weight < o.weight) (htoken : o.token ≠ d.token)
    (hread : (s.grammar PointRule.join).ReadsAs
      (pieces (s.grammar PointRule.join).accepts [] expression.toList)
      [.operand x, .operator (d.transform [.join]), .operator o.binary]) :
    ¬s.ReportsTruly := by
  intro htruly
  let t : Tree PointRule := node (d.transform [.join]) (leaf x) (node o.binary hole hole)
  have hcompiled : compile (s.grammar PointRule.join) expression = .ok t := by
    refine compile_of_readsAs hread ?_ (ofLexemes_sunk hlt) rfl
    simp [List.countP_cons, Lexeme.isOperator, maxOperators]
  have hreport : t.CanReport d.token .right := Table.canReport {} rfl
  exact not_lacks_sunk htoken (htruly expression t hcompiled d.token .right hreport)

/-- Reports of missing operands, for any settings.  They are true if no operator with another token weighs
more than the one that makes decimals.  They are not if some operator does and can be written behind an operand
and the operator that makes decimals: then the point is said to lack its right operand.  And in any case that is
the only report that is not true. -/
theorem missingOperand_reports (s : Settings) :
    (s.PointTightest → s.ReportsTruly) ∧
    (∀ (expression : String) (x : Operand) (d o : OperatorSetting),
      d.weight < o.weight → o.token ≠ d.token →
      (s.grammar PointRule.join).ReadsAs
        (pieces (s.grammar PointRule.join).accepts [] expression.toList)
        [.operand x, .operator (d.transform [.join]), .operator o.binary] → ¬s.ReportsTruly) ∧
    ∀ expression t, compile (s.grammar PointRule.join) expression = .ok t →
      ∀ token side, t.CanReport token side →
        t.Lacks token side ∨ side = .right ∧ s.SunkBehindPoint t token := by
  refine ⟨reportsTruly_of_pointTightest, ?_, ?_⟩
  · intro expression x d o hlt htoken hread
    exact not_reportsTruly_of_heavier hlt htoken hread
  · intro expression t h token side hreport
    exact lacks_or_sunk_of_canReport h hreport

/-- `{a} = 1.` with the usual settings: the point lacks its right operand, and that is reported. -/
theorem missingOperand_reports_truncated :
    let s : Settings := {}
    let table : Table := { columns := ["a"] }
    let t : Tree PointRule :=
      node ⟨"=", 20, .binary⟩ (leaf (.field "a"))
        (node ⟨".", 30, .transform [.join]⟩ (leaf (.literal "1" (.integer 1))) hole)
    s.PointTightest ∧ compile (s.grammar PointRule.join) "{a} = 1." = .ok t ∧
      table.bind Table.vocabulary t = .error (.refused (.missingOperand "." .right)) ∧
      t.Lacks "." .right := by
  intro s table t
  have htightest : s.PointTightest := by
    intro d hd
    cases hd
    decide
  have hcompiled : compile (s.grammar PointRule.join) "{a} = 1." = .ok t := by decide +kernel
  have hbind : table.bind Table.vocabulary t = .error (.refused (.missingOperand "." .right)) := rfl
  have hlacks : t.Lacks "." .right :=
    (missingOperand_reports s).1 htightest _ t hcompiled "." .right (table.canReport hbind)
  exact ⟨htightest, hcompiled, hbind, hlacks⟩

/-- `1.~`, where `~` weighs more than the point: `~` lacks both operands, and the point is reported, which
has both. -/
theorem not_reportsTruly_tilde :
    let s : Settings := { operators := [⟨"~", 40⟩] }
    let table : Table := {}
    let t : Tree PointRule :=
      node ⟨".", 30, .transform [.join]⟩ (leaf (.literal "1" (.integer 1)))
        (node ⟨"~", 40, .binary⟩ hole hole)
    compile (s.grammar PointRule.join) "1.~" = .ok t ∧
      table.bind Table.vocabulary t = .error (.refused (.missingOperand "." .right)) ∧
      ¬t.Lacks "." .right ∧ ¬s.ReportsTruly := by
  intro s table t
  have hcompiled : compile (s.grammar PointRule.join) "1.~" = .ok t := by decide +kernel
  have hbind : table.bind Table.vocabulary t = .error (.refused (.missingOperand "." .right)) := rfl
  have hlacks : ¬t.Lacks "." .right := not_lacks_sunk (by decide)
  refine ⟨hcompiled, hbind, hlacks, ?_⟩
  intro htruly
  exact hlacks (htruly "1.~" t hcompiled "." .right (table.canReport hbind))

end Settings

end FilterLang
