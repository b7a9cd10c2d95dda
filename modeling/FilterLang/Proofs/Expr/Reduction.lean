import FilterLang.Proofs.Expr.Precedence

/-!
# Reduction in a chain

A chain may hold transforming operators beside binary ones.  If they weigh more than all binary ones, they
bind their operands into groups: the binary operators cut the chain, every group is reduced to one operand
from left to right, and the precedence tree is built over what comes out.  `reducedTree` says so of the whole
chain at once; merging reduces each pair of operands as soon as the second one is there, deep in the tree,
and comes to the same tree or to the same refusal (`ofLexemes_reduces`).

One link of the chain is one step (`reduceStep`): a binary one goes to the end, a transforming one is reduced
into the last operand.  Merging the units of a link does to the tree what the step does to the chain
(`foldlM_units_eq_reduceStep`), and the steps together are the reduction of all groups
(`reduceGroups_eq_foldlM`).
-/

namespace FilterLang

variable {ρ : Type}

/-! ## Groups -/

/-- Whether the operator gives way to the operand that is made of its two. -/
def Operator.isTransform (op : Operator ρ) : Bool :=
  match op.kind with
  | .binary => false
  | .transform _ => true

/-- The rules of a transforming operator, in the order in which they are tried. -/
def Operator.rules (op : Operator ρ) : List ρ :=
  match op.kind with
  | .binary => []
  | .transform rules => rules

theorem Operator.isTransform_eq_false_iff {op : Operator ρ} :
    op.isTransform = false ↔ op.kind = .binary := by
  unfold isTransform
  split
  · rename_i hkind
    simp [hkind]
  · rename_i hkind
    simp [hkind]

/-- An operand with the transforming operators behind it and their operands. -/
structure Group (ρ : Type) where
  first : Operand
  links : List (Link ρ)

/-- The links in front of the first binary operator. -/
def leading (links : List (Link ρ)) : List (Link ρ) :=
  links.takeWhile fun k => k.op.isTransform

/-- The binary operators of a chain, each with the group that begins behind it. -/
def groups : List (Link ρ) → List (Operator ρ × Group ρ)
  | [] => []
  | k :: rest =>
    if k.op.isTransform then groups rest else (k.op, ⟨k.operand, leading rest⟩) :: groups rest

variable [Reducer ρ]

/-- The operand made of the one in front of a link and its own, by the first rule that takes them. -/
def Link.reduce (y : Operand) (k : Link ρ) : Except ExprError Operand :=
  match k.op.rules.findSome? fun rule => Reducer.reduce rule (.leaf y) (.leaf k.operand) with
  | some z => .ok z
  | none => .error (.irreducible k.op.token y.text k.operand.text)

/-- The operand a group comes to, reduced strictly from left to right. -/
def Group.reduce (g : Group ρ) : Except ExprError Operand :=
  g.links.foldlM Link.reduce g.first

/-- A binary operator with what the group behind it comes to. -/
def groupLink (g : Operator ρ × Group ρ) : Except ExprError (Link ρ) := do
  return ⟨g.1, ← g.2.reduce⟩

/-- The chain of binary operators over what the groups come to.  The groups are reduced in their order, so
the first reduction that fails decides. -/
def reduceGroups (x : Operand) (links : List (Link ρ)) :
    Except ExprError (Operand × List (Link ρ)) := do
  let y ← Group.reduce ⟨x, leading links⟩
  let ks ← (groups links).mapM groupLink
  return (y, ks)

/-- The tree that a chain with transforming operators calls for. -/
def reducedTree (x : Operand) (links : List (Link ρ)) : Except ExprError (Tree ρ) := do
  let (y, ks) ← reduceGroups x links
  return precedenceTree y ks

/-! ## The end of a chain -/

section LastOperand

omit [Reducer ρ]

/-- The last operand of a chain. -/
def lastOperand (x : Operand) : List (Link ρ) → Operand
  | [] => x
  | k :: rest => lastOperand k.operand rest

/-- The chain with another last operand. -/
def withLast (z : Operand) (x : Operand) : List (Link ρ) → Operand × List (Link ρ)
  | [] => (z, [])
  | k :: rest =>
    let (y, rest') := withLast z k.operand rest
    (x, ⟨k.op, y⟩ :: rest')

theorem lastOperand_append (x : Operand) (front : List (Link ρ)) (k : Link ρ) (back : List (Link ρ)) :
    lastOperand x (front ++ k :: back) = lastOperand k.operand back := by
  induction front generalizing x with
  | nil => rfl
  | cons j front ih => exact ih j.operand

theorem withLast_append (z x : Operand) (front : List (Link ρ)) (k : Link ρ) (back : List (Link ρ)) :
    withLast z x (front ++ k :: back) =
      (x, front ++ ⟨k.op, (withLast z k.operand back).1⟩ :: (withLast z k.operand back).2) := by
  induction front generalizing x with
  | nil => rfl
  | cons j front ih => simp only [List.cons_append, withLast, ih]

theorem withLast_lastOperand (x : Operand) (links : List (Link ρ)) :
    withLast (lastOperand x links) x links = (x, links) := by
  induction links generalizing x with
  | nil => rfl
  | cons k rest ih => simp only [lastOperand, withLast, ih]

theorem lastOperand_withLast (z x : Operand) (links : List (Link ρ)) :
    lastOperand (withLast z x links).1 (withLast z x links).2 = z := by
  induction links generalizing x with
  | nil => rfl
  | cons k rest ih => exact ih k.operand

theorem withLast_withLast (w z x : Operand) (links : List (Link ρ)) :
    withLast w (withLast z x links).1 (withLast z x links).2 = withLast w x links := by
  induction links generalizing x with
  | nil => rfl
  | cons k rest ih => simp only [withLast, ih]

/-- The operators stay. -/
theorem map_op_withLast (z x : Operand) (links : List (Link ρ)) :
    (withLast z x links).2.map Link.op = links.map Link.op := by
  induction links generalizing x with
  | nil => rfl
  | cons k rest ih => simp only [withLast, List.map_cons, ih]

theorem exists_op_eq_of_mem_withLast {z x : Operand} {links : List (Link ρ)} {j : Link ρ}
    (h : j ∈ (withLast z x links).2) : ∃ k ∈ links, k.op = j.op := by
  have hop : j.op ∈ (withLast z x links).2.map Link.op := List.mem_map_of_mem h
  rw [map_op_withLast] at hop
  exact List.mem_map.1 hop

/-- Another operand at the end of a chain leaves the cut where it is. -/
theorem precedenceTree_withLast {x : Operand} {links : List (Link ρ)} (s : LightestSplit links)
    (z : Operand) :
    precedenceTree (withLast z x links).1 (withLast z x links).2 =
      .node s.root.op (precedenceTree x s.front)
        (precedenceTree (withLast z s.root.operand s.back).1 (withLast z s.root.operand s.back).2) := by
  have hlinks : withLast z x links = (x, s.front ++ ⟨s.root.op, (withLast z s.root.operand s.back).1⟩ ::
      (withLast z s.root.operand s.back).2) := by
    conv_lhs => rw [s.links_eq]
    exact withLast_append z x s.front s.root s.back
  rw [hlinks]
  refine precedenceTree_split
    { front := s.front
      root := ⟨s.root.op, (withLast z s.root.operand s.back).1⟩
      back := (withLast z s.root.operand s.back).2
      links_eq := rfl
      le_front := s.le_front
      lt_back := ?_ }
  intro j hj
  obtain ⟨k, hk, hop⟩ := exists_op_eq_of_mem_withLast hj
  rw [← hop]
  exact s.lt_back k hk

end LastOperand

/-! ## One link -/

/-- Takes in the next link: a binary one goes to the end of the chain, and a transforming one is reduced
into the last operand. -/
def reduceStep (s : Operand × List (Link ρ)) (k : Link ρ) :
    Except ExprError (Operand × List (Link ρ)) :=
  if k.op.isTransform then do return withLast (← k.reduce (lastOperand s.1 s.2)) s.1 s.2
  else .ok (s.1, s.2 ++ [k])

theorem reduceStep_binary {k : Link ρ} (hk : k.op.isTransform = false) (s : Operand × List (Link ρ)) :
    reduceStep s k = .ok (s.1, s.2 ++ [k]) := by
  simp [reduceStep, hk]

theorem reduceStep_transform {k : Link ρ} (hk : k.op.isTransform = true)
    (s : Operand × List (Link ρ)) :
    reduceStep s k = (k.reduce (lastOperand s.1 s.2)).map fun z => withLast z s.1 s.2 := by
  rw [reduceStep, if_pos hk]
  rfl

open FilterLang.Tree

theorem addOperand_node_eq_bind {x : Operand} {op : Operator ρ} {left right : Tree ρ}
    (hleft : left.isHole = false) (hpending : right.pending = true) :
    addOperand x (node op left right) = addOperand x right >>= settle op left := by
  simp [addOperand, hleft, hpending]

/-- Between two operands a transforming operator is settled as its link is reduced. -/
theorem settle_leaf {k : Link ρ} (hk : k.op.isTransform = true) (y : Operand) :
    settle k.op (leaf y) (leaf k.operand) = (k.reduce y).map leaf := by
  obtain ⟨rules, hkind⟩ : ∃ rules, k.op.kind = .transform rules := by
    cases hkind : k.op.kind with
    | binary =>
      rw [Operator.isTransform_eq_false_iff.2 hkind] at hk
      cases hk
    | transform rules => exact ⟨rules, rfl⟩
  have hrules : k.op.rules = rules := by rw [Operator.rules, hkind]
  have hsettle : settle k.op (leaf y) (leaf k.operand) =
      match rules.findSome? fun rule => Reducer.reduce rule (leaf y) (leaf k.operand) with
      | some z => .ok (leaf z)
      | none => .error (.irreducible k.op.token y.text k.operand.text) := by
    rw [settle, hkind]
    rfl
  rw [hsettle, Link.reduce, hrules]
  cases rules.findSome? fun rule => Reducer.reduce rule (leaf y) (leaf k.operand) with
  | none => rfl
  | some z => rfl

/-- A transforming operator that weighs more than the whole chain sinks to its last operand; when its own
operand comes, the two are reduced, and nothing else of the tree changes. -/
theorem addOperator_transform {x : Operand} {links : List (Link ρ)} {k : Link ρ}
    (hbinary : ∀ j ∈ links, j.op.kind = .binary) (hheavy : ∀ j ∈ links, j.op.weight < k.op.weight)
    (hk : k.op.isTransform = true) :
    ∃ t, addOperator k.op hole hole (precedenceTree x links) = .ok t ∧ t.pending = true ∧
      addOperand k.operand t = (k.reduce (lastOperand x links)).map fun z =>
        precedenceTree (withLast z x links).1 (withLast z x links).2 := by
  fun_induction precedenceTree x links with
  | case1 x =>
    refine ⟨node k.op (leaf x) hole, addOperator_leaf k.op x, rfl, ?_⟩
    rw [addOperand_node rfl rfl, settle_leaf hk]
    simp only [lastOperand, withLast, precedenceTree]
  | case2 x k₀ rest s ihfront ihback =>
    have hroot_mem : s.root ∈ k₀ :: rest := by simp [s.links_eq]
    have hback_mem : ∀ j ∈ s.back, j ∈ k₀ :: rest := by
      intro j hj
      simp [s.links_eq, hj]
    obtain ⟨t, hadd, hpending, hfill⟩ := ihback (fun j hj => hbinary j (hback_mem j hj))
      (fun j hj => hheavy j (hback_mem j hj))
    refine ⟨node s.root.op (precedenceTree x s.front) t,
      addOperator_node_of_lt (hheavy _ hroot_mem) hadd, ?_, ?_⟩
    · simp [pending, hpending]
    · have hleft := isHole_eq_false_of_complete (complete_precedenceTree x s.front)
      have hlast : lastOperand x (k₀ :: rest) = lastOperand s.root.operand s.back := by
        conv_lhs => rw [s.links_eq]
        exact lastOperand_append x s.front s.root s.back
      rw [addOperand_node_eq_bind hleft hpending, hfill, hlast]
      simp only [precedenceTree_withLast s]
      cases k.reduce (lastOperand s.root.operand s.back) with
      | error e => rfl
      | ok z => exact settle_binary (hbinary _ hroot_mem) _ _

/-- Merging the two units of a link does to the precedence tree what the step does to the chain. -/
theorem foldlM_units_eq_reduceStep {s : Operand × List (Link ρ)} {k : Link ρ}
    (hbinary : ∀ j ∈ s.2, j.op.kind = .binary)
    (hheavy : k.op.isTransform = true → ∀ j ∈ s.2, j.op.weight < k.op.weight) :
    k.units.foldlM add (precedenceTree s.1 s.2) =
      (reduceStep s k).map fun s' => precedenceTree s'.1 s'.2 := by
  cases hk : k.op.isTransform with
  | false =>
    rw [reduceStep_binary hk]
    exact foldlM_units_precedenceTree hbinary (Operator.isTransform_eq_false_iff.1 hk)
  | true =>
    rw [reduceStep_transform hk]
    obtain ⟨t, hadd, -, hfill⟩ := addOperator_transform (x := s.1) hbinary (hheavy hk) hk
    have hop : (precedenceTree s.1 s.2).add (.operator k.op) = .ok t := hadd
    have hoperand : t.add (.operand k.operand) = (k.reduce (lastOperand s.1 s.2)).map fun z =>
        precedenceTree (withLast z s.1 s.2).1 (withLast z s.1 s.2).2 := hfill
    rw [Link.units, List.foldlM_cons, hop]
    show [Lexeme.operand k.operand].foldlM add t = _
    rw [List.foldlM_cons, hoperand]
    cases k.reduce (lastOperand s.1 s.2) with
    | error e => rfl
    | ok z => rfl

/-! ## Whole chains -/

/-- What has to hold of a chain that is reduced and of the links that are still to come. -/
structure Ready (s : Operand × List (Link ρ)) (rest : List (Link ρ)) : Prop where
  binary : ∀ j ∈ s.2, j.op.kind = .binary
  heavier : ∀ k ∈ rest, k.op.isTransform = true → ∀ j ∈ s.2, j.op.weight < k.op.weight
  rest_heavier : ∀ j ∈ rest, ∀ k ∈ rest, j.op.kind = .binary → k.op.isTransform = true →
    j.op.weight < k.op.weight

omit [Reducer ρ] in
theorem ready_start (x : Operand) {links : List (Link ρ)}
    (h : ∀ j ∈ links, ∀ k ∈ links, j.op.kind = .binary → k.op.isTransform = true →
      j.op.weight < k.op.weight) : Ready (x, []) links :=
  ⟨by simp, by simp, h⟩

theorem Ready.step {s s' : Operand × List (Link ρ)} {k : Link ρ} {rest : List (Link ρ)}
    (h : Ready s (k :: rest)) (hstep : reduceStep s k = .ok s') : Ready s' rest := by
  have hrest : ∀ j ∈ rest, ∀ i ∈ rest, j.op.kind = .binary → i.op.isTransform = true →
      j.op.weight < i.op.weight := by
    intro j hj i hi
    exact h.rest_heavier j (List.mem_cons_of_mem k hj) i (List.mem_cons_of_mem k hi)
  unfold reduceStep at hstep
  split at hstep
  · -- the operators of the chain are the same
    obtain ⟨z, -, hs'⟩ := except_bind_eq_ok_iff.1 hstep
    cases hs'
    refine ⟨?_, ?_, hrest⟩
    · intro j hj
      obtain ⟨i, hi, hop⟩ := exists_op_eq_of_mem_withLast hj
      rw [← hop]
      exact h.binary i hi
    · intro i hi htransform j hj
      obtain ⟨l, hl, hop⟩ := exists_op_eq_of_mem_withLast hj
      rw [← hop]
      exact h.heavier i (List.mem_cons_of_mem k hi) htransform l hl
  · -- the new one is binary
    rename_i hk
    have hbinary := Operator.isTransform_eq_false_iff.1 (Bool.eq_false_iff.2 hk)
    cases hstep
    refine ⟨?_, ?_, hrest⟩
    · intro j hj
      rw [List.mem_append, List.mem_singleton] at hj
      rcases hj with hj | rfl
      · exact h.binary j hj
      · exact hbinary
    · intro i hi htransform j hj
      rw [List.mem_append, List.mem_singleton] at hj
      rcases hj with hj | rfl
      · exact h.heavier i (List.mem_cons_of_mem k hi) htransform j hj
      · exact h.rest_heavier j List.mem_cons_self i (List.mem_cons_of_mem j hi) hbinary htransform

/-- Merging the units of all links to come does what the steps do. -/
theorem foldlM_flatMap_units {s : Operand × List (Link ρ)} {rest : List (Link ρ)} (h : Ready s rest) :
    (rest.flatMap Link.units).foldlM add (precedenceTree s.1 s.2) =
      (rest.foldlM reduceStep s).map fun s' => precedenceTree s'.1 s'.2 := by
  induction rest generalizing s with
  | nil => rfl
  | cons k rest ih =>
    have hlink := foldlM_units_eq_reduceStep h.binary (h.heavier k List.mem_cons_self)
    rw [List.flatMap_cons, List.foldlM_append, hlink, List.foldlM_cons]
    cases hstep : reduceStep s k with
    | error e => rfl
    | ok s' => exact ih (h.step hstep)

/-- The steps reduce the group that the chain ends with, and then those to come. -/
theorem foldlM_reduceStep (s : Operand × List (Link ρ)) (rest : List (Link ρ)) :
    rest.foldlM reduceStep s = do
      let z ← Group.reduce ⟨lastOperand s.1 s.2, leading rest⟩
      let ks ← (groups rest).mapM groupLink
      return ((withLast z s.1 s.2).1, (withLast z s.1 s.2).2 ++ ks) := by
  induction rest generalizing s with
  | nil =>
    show Except.ok s = Except.ok ((withLast (lastOperand s.1 s.2) s.1 s.2).1, _ ++ [])
    rw [withLast_lastOperand, List.append_nil]
  | cons k rest ih =>
    rw [List.foldlM_cons]
    cases hk : k.op.isTransform with
    | true =>
      -- the link belongs to the group at the end
      have hleading : leading (k :: rest) = k :: leading rest := List.takeWhile_cons_of_pos hk
      have hgroups : groups (k :: rest) = groups rest := by rw [groups, if_pos hk]
      rw [reduceStep_transform hk, hleading, hgroups]
      simp only [Group.reduce, List.foldlM_cons]
      cases k.reduce (lastOperand s.1 s.2) with
      | error e => rfl
      | ok z =>
        have hnext := ih (withLast z s.1 s.2)
        simp only [lastOperand_withLast, withLast_withLast] at hnext
        exact hnext
    | false =>
      -- the group at the end is complete, and the next one begins
      have hne : ¬k.op.isTransform = true := by simp [hk]
      have hleading : leading (k :: rest) = [] := List.takeWhile_cons_of_neg hne
      have hgroups : groups (k :: rest) = (k.op, ⟨k.operand, leading rest⟩) :: groups rest := by
        rw [groups, if_neg hne]
      have hnext := ih (s.1, s.2 ++ [k])
      simp only [lastOperand_append, withLast_append, lastOperand, withLast] at hnext
      rw [reduceStep_binary hk, hleading, hgroups, List.mapM_cons]
      show rest.foldlM reduceStep (s.1, s.2 ++ [k]) = _
      rw [hnext]
      simp only [groupLink]
      cases Group.reduce ⟨k.operand, leading rest⟩ with
      | error e => rfl
      | ok z =>
        cases (groups rest).mapM groupLink with
        | error e => rfl
        | ok ks =>
          show _ = Except.ok ((withLast (lastOperand s.1 s.2) s.1 s.2).1, _)
          rw [withLast_lastOperand, List.append_cons]
          rfl

theorem reduceGroups_eq_foldlM (x : Operand) (links : List (Link ρ)) :
    reduceGroups x links = links.foldlM reduceStep (x, []) := by
  rw [foldlM_reduceStep]
  rfl

theorem ofLexemes_eq_reducedTree {x : Operand} {links : List (Link ρ)}
    (hheavier : ∀ j ∈ links, ∀ k ∈ links, j.op.kind = .binary → k.op.isTransform = true →
      j.op.weight < k.op.weight) :
    ofLexemes (chain x links) = reducedTree x links := by
  have hstart : ofLexemes (chain x links) =
      (links.flatMap Link.units).foldlM add (precedenceTree x ([] : List (Link ρ))) := by
    rw [precedenceTree]
    rfl
  rw [hstart, foldlM_flatMap_units (ready_start x hheavier), ← reduceGroups_eq_foldlM]
  rfl

/-- A reduction fails exactly where no rule takes the two operands. -/
theorem Link.reduce_eq_error_iff {y : Operand} {k : Link ρ} {e : ExprError} :
    k.reduce y = .error e ↔
      (∀ rule ∈ k.op.rules, Reducer.reduce rule (.leaf y) (.leaf k.operand) = none) ∧
        e = .irreducible k.op.token y.text k.operand.text := by
  rw [← List.findSome?_eq_none_iff, Link.reduce]
  split
  · rename_i z hz
    simp [hz]
  · rename_i hnone
    simp [hnone, eq_comm]

/-- Reducing the groups fails with the first link, in their order, that no rule reduces. -/
theorem reduceGroups_eq_error_iff {x : Operand} {links : List (Link ρ)} {e : ExprError} :
    reduceGroups x links = .error e ↔
      ∃ front k back y ks, links = front ++ k :: back ∧ k.op.isTransform = true ∧
        reduceGroups x front = .ok (y, ks) ∧ k.reduce (lastOperand y ks) = .error e := by
  constructor
  · intro h
    rw [reduceGroups_eq_foldlM] at h
    obtain ⟨front, k, back, ⟨y, ks⟩, rfl, hfront, hstep⟩ := foldlM_eq_error h
    cases hk : k.op.isTransform with
    | false =>
      rw [reduceStep_binary hk] at hstep
      cases hstep
    | true =>
      rw [reduceStep_transform hk] at hstep
      refine ⟨front, k, back, y, ks, rfl, hk, ?_, ?_⟩
      · rw [reduceGroups_eq_foldlM, hfront]
      · cases hreduce : k.reduce (lastOperand y ks) with
        | error e' =>
          rw [hreduce] at hstep
          cases hstep
          rfl
        | ok z =>
          rw [hreduce] at hstep
          cases hstep
  · rintro ⟨front, k, back, y, ks, rfl, hk, hfront, hreduce⟩
    rw [reduceGroups_eq_foldlM] at hfront
    rw [reduceGroups_eq_foldlM, List.foldlM_append, hfront]
    show (k :: back).foldlM reduceStep (y, ks) = _
    rw [List.foldlM_cons, reduceStep_transform hk, hreduce]
    rfl

/-- A chain whose transforming operators weigh more than its binary ones comes to the precedence tree over
its reduced groups.  It is refused exactly if some pair of operands has no rule: with the first such pair,
the left one being what the group comes to so far. -/
theorem ofLexemes_reduces (x : Operand) (links : List (Link ρ))
    (hheavier : ∀ j ∈ links, ∀ k ∈ links, j.op.kind = .binary → k.op.isTransform = true →
      j.op.weight < k.op.weight) :
    ofLexemes (chain x links) = reducedTree x links ∧
      ∀ e, ofLexemes (chain x links) = .error e ↔
        ∃ front k back y ks, links = front ++ k :: back ∧ k.op.isTransform = true ∧
          reduceGroups x front = .ok (y, ks) ∧
          (∀ rule ∈ k.op.rules,
            Reducer.reduce rule (.leaf (lastOperand y ks)) (.leaf k.operand) = none) ∧
          e = .irreducible k.op.token (lastOperand y ks).text k.operand.text := by
  have hwhole := ofLexemes_eq_reducedTree (x := x) hheavier
  refine ⟨hwhole, ?_⟩
  intro e
  have herror : reducedTree x links = .error e ↔ reduceGroups x links = .error e := by
    rw [reducedTree, except_bind_eq_error_iff]
    constructor
    · rintro (h | ⟨s, -, h⟩)
      · exact h
      · cases h
    · exact Or.inl
  rw [hwhole, herror, reduceGroups_eq_error_iff]
  simp only [Link.reduce_eq_error_iff]

/-- `{a} = 1 . 5 and 2 , 5 = {b}` comes to a tree of five operands, and `1 , 5 . 2` is refused at its second
reduction, although the operator there weighs more than the first one. -/
theorem ofLexemes_reduces_points :
    let conj : Operator PointRule := ⟨"and", 10, .binary⟩
    let equal : Operator PointRule := ⟨"=", 20, .binary⟩
    let comma : Operator PointRule := ⟨",", 25, .transform [.join]⟩
    let point : Operator PointRule := ⟨".", 30, .transform [.join]⟩
    let one : Operand := .literal "1" (.integer 1)
    let two : Operand := .literal "2" (.integer 2)
    let five : Operand := .literal "5" (.integer 5)
    let joined₁ : Operand := .literal "1.5" (.decimal ⟨false, 15, 1, by decide, by decide⟩)
    let joined₂ : Operand := .literal "2.5" (.decimal ⟨false, 25, 1, by decide, by decide⟩)
    let links : List (Link PointRule) :=
      [⟨equal, one⟩, ⟨point, five⟩, ⟨conj, two⟩, ⟨comma, five⟩, ⟨equal, .field "b"⟩]
    let refused : List (Link PointRule) := [⟨comma, five⟩, ⟨point, two⟩]
    ofLexemes (chain (.field "a") links) =
        .ok (node conj
          (node equal (leaf (.field "a")) (leaf joined₁))
          (node equal (leaf joined₂) (leaf (.field "b")))) ∧
      ofLexemes (chain one refused) = .error (.irreducible "." "1.5" "2") := by
  intro conj equal comma point one two five joined₁ joined₂ links refused
  have hgroups : reduceGroups (.field "a") links =
      .ok (.field "a", [⟨equal, joined₁⟩, ⟨conj, joined₂⟩, ⟨equal, .field "b"⟩]) := by rfl
  constructor
  · have htree := (ofLexemes_reduces (.field "a") links (by decide)).1
    rw [htree, reducedTree, hgroups]
    show Except.ok (precedenceTree _ _) = _
    simp [conj, equal, precedenceTree, LightestSplit.ofCons]
  · refine ((ofLexemes_reduces one refused (by decide)).2 _).2 ?_
    exact ⟨[⟨comma, five⟩], ⟨point, two⟩, [], joined₁, [], rfl, rfl, rfl, by decide, rfl⟩

end FilterLang
