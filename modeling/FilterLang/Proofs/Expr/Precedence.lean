import FilterLang.Expr.DecimalPoint
import FilterLang.Proofs.Expr.Shape
import Mathlib.Data.List.Induction

/-!
# Operator precedence

A chain `x₀ o₁ x₁ … oₙ xₙ` of operands and binary operators has one tree that its weights call for:
the root is the rightmost of the lightest operators, and the parts of the chain to the left and to
the right of it give the two sides.  `precedenceTree` cuts the whole chain in this way, again and
again; merging sees one unit at a time and never looks back.  Both come to the same tree
(`ofLexemes_chain`).

The induction is on the end of the chain: one more operator changes the tree only along its right
spine (`addOperator_precedenceTree`), just as it changes the cut only where it is at most as heavy as
the root.
-/

namespace FilterLang

variable {ρ : Type}

/-! ## Chains -/

/-- An operator with the operand behind it. -/
structure Link (ρ : Type) where
  op : Operator ρ
  operand : Operand
deriving DecidableEq

/-- The two units of a link. -/
def Link.units (k : Link ρ) : List (Lexeme ρ) :=
  [.operator k.op, .operand k.operand]

/-- The units of a chain: an operand, then operators and operands in turn. -/
def chain (x : Operand) (links : List (Link ρ)) : List (Lexeme ρ) :=
  .operand x :: links.flatMap Link.units

theorem chain_append (x : Operand) (links : List (Link ρ)) (k : Link ρ) :
    chain x (links ++ [k]) = chain x links ++ k.units := by
  simp [chain]

theorem chain_split (x : Operand) (front : List (Link ρ)) (k : Link ρ) (back : List (Link ρ)) :
    chain x (front ++ k :: back) = chain x front ++ .operator k.op :: chain k.operand back := by
  simp [chain, Link.units]

/-! ## The cut at the rightmost lightest operator -/

/-- A list of links, cut at the rightmost of those that weigh least. -/
structure LightestSplit (links : List (Link ρ)) where
  front : List (Link ρ)
  root : Link ρ
  back : List (Link ρ)
  links_eq : links = front ++ root :: back
  le_front : ∀ k ∈ front, root.op.weight ≤ k.op.weight
  lt_back : ∀ k ∈ back, root.op.weight < k.op.weight

namespace LightestSplit

/-- The cut of a list that is not empty.  Its first link is the root only if it is lighter than all
the others. -/
def ofCons (k : Link ρ) : (rest : List (Link ρ)) → LightestSplit (k :: rest)
  | [] => ⟨[], k, [], rfl, by simp, by simp⟩
  | k' :: rest =>
    let s := ofCons k' rest
    -- the head takes the root from the lightest of the rest only if it is lighter still
    if h : k.op.weight < s.root.op.weight then
      { front := [], root := k, back := k' :: rest
        links_eq := rfl
        le_front := by simp
        lt_back := by
          intro j hj
          rw [s.links_eq, List.mem_append, List.mem_cons] at hj
          rcases hj with hj | rfl | hj
          · exact UInt32.lt_of_lt_of_le h (s.le_front j hj)
          · exact h
          · exact UInt32.lt_trans h (s.lt_back j hj) }
    else
      { front := k :: s.front, root := s.root, back := s.back
        links_eq := congrArg (k :: ·) s.links_eq
        le_front := List.forall_mem_cons.2 ⟨UInt32.not_lt.1 h, s.le_front⟩
        lt_back := s.lt_back }

variable {links : List (Link ρ)}

/-- A heavier link at the end of the list leaves the root where it is. -/
def extend (s : LightestSplit links) (k : Link ρ) (h : s.root.op.weight < k.op.weight) :
    LightestSplit (links ++ [k]) where
  front := s.front
  root := s.root
  back := s.back ++ [k]
  links_eq := by rw [← List.cons_append, ← List.append_assoc, ← s.links_eq]
  le_front := s.le_front
  lt_back := by
    intro j hj
    rw [List.mem_append, List.mem_singleton] at hj
    rcases hj with hj | rfl
    · exact s.lt_back j hj
    · exact h

/-- A link that none in front of it undercuts is the root. -/
def last (k : Link ρ) (h : ∀ j ∈ links, k.op.weight ≤ j.op.weight) : LightestSplit (links ++ [k]) where
  front := links
  root := k
  back := []
  links_eq := rfl
  le_front := h
  lt_back := by simp

theorem length_front_lt (s : LightestSplit links) : s.front.length < links.length := by
  have hlen := congrArg List.length s.links_eq
  simp only [List.length_append, List.length_cons] at hlen
  omega

theorem length_back_lt (s : LightestSplit links) : s.back.length < links.length := by
  have hlen := congrArg List.length s.links_eq
  simp only [List.length_append, List.length_cons] at hlen
  omega

/-- Every link weighs at least as much as the root. -/
theorem root_le (s : LightestSplit links) : ∀ k ∈ links, s.root.op.weight ≤ k.op.weight := by
  intro k hk
  rw [s.links_eq, List.mem_append, List.mem_cons] at hk
  rcases hk with hk | rfl | hk
  · exact s.le_front k hk
  · exact UInt32.le_refl _
  · exact UInt32.le_of_lt (s.lt_back k hk)

/-- A root that stands in front of another one would be lighter and at least as heavy. -/
theorem root_not_before {s s' : LightestSplit links} {mid : List (Link ρ)}
    (hfront : s'.front = s.front ++ s.root :: mid) (hback : s.back = mid ++ s'.root :: s'.back) :
    False := by
  have hlt : s.root.op.weight < s'.root.op.weight := s.lt_back _ (by simp [hback])
  have hle : s'.root.op.weight ≤ s.root.op.weight := s'.le_front _ (by simp [hfront])
  exact UInt32.not_lt.2 hle hlt

/-- There is only one place to cut. -/
theorem eq (s s' : LightestSplit links) : s = s' := by
  have hcut : s.front ++ s.root :: s.back = s'.front ++ s'.root :: s'.back :=
    s.links_eq.symm.trans s'.links_eq
  -- if the fronts differ, one of the roots stands in front of the other
  have hsame : s.front = s'.front ∧ s.root = s'.root ∧ s.back = s'.back := by
    rcases List.append_eq_append_iff.1 hcut with ⟨mid, hfront, hrest⟩ | ⟨mid, hfront, hrest⟩
    · cases mid with
      | nil => simp_all
      | cons j mid =>
        obtain ⟨rfl, hback⟩ := List.cons.inj hrest
        exact (root_not_before hfront hback).elim
    · cases mid with
      | nil => simp_all
      | cons j mid =>
        obtain ⟨rfl, hback⟩ := List.cons.inj hrest
        exact (root_not_before hfront hback).elim
  cases s
  cases s'
  simpa using hsame

end LightestSplit

/-! ## The precedence tree -/

/-- The tree that the weights of a chain call for. -/
def precedenceTree (x : Operand) : List (Link ρ) → Tree ρ
  | [] => .leaf x
  | k :: rest =>
    let s := LightestSplit.ofCons k rest
    .node s.root.op (precedenceTree x s.front) (precedenceTree s.root.operand s.back)
termination_by links => links.length
decreasing_by
  · exact s.length_front_lt
  · exact s.length_back_lt

/-- Wherever the cut is found, it gives the tree. -/
theorem precedenceTree_split {x : Operand} {links : List (Link ρ)} (s : LightestSplit links) :
    precedenceTree x links =
      .node s.root.op (precedenceTree x s.front) (precedenceTree s.root.operand s.back) := by
  cases links with
  | nil => exact absurd s.links_eq (by simp)
  | cons k rest => rw [precedenceTree, LightestSplit.eq s (.ofCons k rest)]

/-- The tree holds the units of the chain in their order. -/
theorem units_precedenceTree (x : Operand) (links : List (Link ρ)) :
    (precedenceTree x links).units = chain x links := by
  fun_induction precedenceTree x links with
  | case1 x => rfl
  | case2 x k rest s ihfront ihback =>
    rw [Tree.units, ihfront, ihback, ← chain_split, ← s.links_eq]

theorem operators_precedenceTree (x : Operand) (links : List (Link ρ)) :
    (precedenceTree x links).operators = links.map Link.op := by
  fun_induction precedenceTree x links with
  | case1 x => rfl
  | case2 x k rest s ihfront ihback =>
    rw [Tree.operators, ihfront, ihback]
    conv_rhs => rw [s.links_eq]
    rw [List.map_append, List.map_cons]

theorem complete_precedenceTree (x : Operand) (links : List (Link ρ)) :
    (precedenceTree x links).complete = true := by
  fun_induction precedenceTree x links with
  | case1 x => rfl
  | case2 x k rest s ihfront ihback => simp [Tree.complete, ihfront, ihback]

theorem graded_precedenceTree (x : Operand) (links : List (Link ρ)) :
    (precedenceTree x links).Graded := by
  fun_induction precedenceTree x links with
  | case1 x => trivial
  | case2 x k rest s ihfront ihback =>
    refine ⟨?_, ?_, ihfront, ihback⟩
    · rw [operators_precedenceTree]
      exact List.forall_mem_map.2 s.le_front
    · rw [operators_precedenceTree]
      exact List.forall_mem_map.2 s.lt_back

/-! ## One more link -/

variable [Reducer ρ]

open FilterLang.Tree

/-- One more link on a chain: its operator finds its place in the tree, the hole it brings is on the
right spine, and the operand that fills the hole makes the precedence tree of the longer chain. -/
theorem addOperator_precedenceTree {x : Operand} {links : List (Link ρ)}
    (hbinary : ∀ j ∈ links, j.op.kind = .binary) {k : Link ρ} (hk : k.op.kind = .binary) :
    ∃ t, addOperator k.op hole hole (precedenceTree x links) = .ok t ∧ t.pending = true ∧
      addOperand k.operand t = .ok (precedenceTree x (links ++ [k])) := by
  fun_induction precedenceTree x links with
  | case1 x =>
    refine ⟨node k.op (leaf x) hole, settle_binary hk _ _, rfl, ?_⟩
    have hfirst : precedenceTree x ([] ++ [k]) = node k.op (leaf x) (leaf k.operand) := by
      rw [precedenceTree_split (.last k (by simp))]
      simp [LightestSplit.last, precedenceTree]
    rw [hfirst, addOperand_node rfl rfl, settle_binary hk]
  | case2 x k₀ rest s ihfront ihback =>
    have hroot : s.root.op.kind = .binary := hbinary _ (by simp [s.links_eq])
    by_cases hlt : s.root.op.weight < k.op.weight
    · -- the operator sinks into the right side, which is the tree of the links behind the root
      have hback : ∀ j ∈ s.back, j.op.kind = .binary := by
        intro j hj
        exact hbinary j (by simp [s.links_eq, hj])
      obtain ⟨t, hadd, hpending, hfill⟩ := ihback hback
      refine ⟨node s.root.op (precedenceTree x s.front) t, addOperator_node_of_lt hlt hadd, ?_, ?_⟩
      · simp [pending, hpending]
      · have hleft := isHole_eq_false_of_complete (complete_precedenceTree x s.front)
        rw [addOperand_node hleft hfill, settle_binary hroot,
          precedenceTree_split (s.extend k hlt)]
        rfl
    · -- nothing in front is lighter, so the operator takes the whole tree as its left side
      have hle : ∀ j ∈ k₀ :: rest, k.op.weight ≤ j.op.weight := by
        intro j hj
        exact UInt32.le_trans (UInt32.not_lt.1 hlt) (s.root_le j hj)
      refine ⟨node k.op (precedenceTree x (k₀ :: rest)) hole, ?_, ?_, ?_⟩
      · rw [precedenceTree_split s]
        exact addOperator_node_of_not_lt hlt
      · simp [pending]
      · have hleft := isHole_eq_false_of_complete (complete_precedenceTree x (k₀ :: rest))
        rw [addOperand_node hleft rfl, settle_binary hk, precedenceTree_split (.last k hle)]
        simp [LightestSplit.last, precedenceTree]

/-! ## Whole chains -/

/-- The two units of one more link make the precedence tree of the longer chain. -/
theorem foldlM_units_precedenceTree {x : Operand} {links : List (Link ρ)}
    (hbinary : ∀ j ∈ links, j.op.kind = .binary) {k : Link ρ} (hk : k.op.kind = .binary) :
    k.units.foldlM add (precedenceTree x links) = .ok (precedenceTree x (links ++ [k])) := by
  obtain ⟨t, hadd, -, hfill⟩ := addOperator_precedenceTree hbinary (x := x) hk
  have hop : (precedenceTree x links).add (.operator k.op) = .ok t := hadd
  have hoperand : t.add (.operand k.operand) = .ok (precedenceTree x (links ++ [k])) := hfill
  simp only [Link.units, List.foldlM_cons, List.foldlM_nil, hop]
  exact congrArg (fun r => r >>= pure) hoperand

theorem ofLexemes_eq_precedenceTree (x : Operand) (links : List (Link ρ))
    (hbinary : ∀ k ∈ links, k.op.kind = .binary) :
    ofLexemes (chain x links) = .ok (precedenceTree x links) := by
  induction links using List.reverseRecOn with
  | nil =>
    rw [precedenceTree]
    rfl
  | append_singleton links k ih =>
    have hfront : ∀ j ∈ links, j.op.kind = .binary := by
      intro j hj
      exact hbinary j (by simp [hj])
    calc ofLexemes (chain x (links ++ [k]))
        = (ofLexemes (chain x links)).bind fun t => k.units.foldlM add t := by
          rw [chain_append, ofLexemes_append]
      _ = k.units.foldlM add (precedenceTree x links) := by rw [ih hfront]; rfl
      _ = .ok (precedenceTree x (links ++ [k])) :=
          foldlM_units_precedenceTree hfront (hbinary k (by simp))

/-- Merging the units of a chain one by one fails at no step and ends with the precedence tree.  That
tree lacks no operand, holds the chain from left to right, and is graded: equal weights associate to
the left. -/
theorem ofLexemes_chain (x : Operand) (links : List (Link ρ))
    (hbinary : ∀ k ∈ links, k.op.kind = .binary) :
    (∀ us, us <+: chain x links → ∃ t, ofLexemes us = .ok t) ∧
      ofLexemes (chain x links) = .ok (precedenceTree x links) ∧
      (precedenceTree x links).complete = true ∧
      (precedenceTree x links).units = chain x links ∧
      (precedenceTree x links).Graded := by
  have hwhole := ofLexemes_eq_precedenceTree x links hbinary
  refine ⟨?_, hwhole, complete_precedenceTree x links, units_precedenceTree x links,
    graded_precedenceTree x links⟩
  intro us hpre
  exact exists_ofLexemes_of_prefix hpre hwhole

/-- `a + b * c - d`, in which the product goes to the right and the difference comes last. -/
theorem ofLexemes_chain_sum :
    let plus : Operator PointRule := ⟨"+", 10, .binary⟩
    let times : Operator PointRule := ⟨"*", 20, .binary⟩
    let minus : Operator PointRule := ⟨"-", 10, .binary⟩
    let links : List (Link PointRule) := [⟨plus, .field "b"⟩, ⟨times, .field "c"⟩, ⟨minus, .field "d"⟩]
    (∀ k ∈ links, k.op.kind = .binary) ∧
      ofLexemes (chain (.field "a") links) =
        .ok (node minus
          (node plus (leaf (.field "a")) (node times (leaf (.field "b")) (leaf (.field "c"))))
          (leaf (.field "d"))) := by
  intro plus times minus links
  have hbinary : ∀ k ∈ links, k.op.kind = .binary := by decide
  have htree := (ofLexemes_chain (.field "a") links hbinary).2.1
  refine ⟨hbinary, htree.trans ?_⟩
  simp [links, plus, times, minus, precedenceTree, LightestSplit.ofCons]

end FilterLang
