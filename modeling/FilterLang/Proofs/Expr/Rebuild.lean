import FilterLang.Expr.DecimalPoint
import FilterLang.Proofs.Expr.Regular

/-!
# Building a tree again

A tree that was built is the tree of its own units: merging them once more from left to right, holes
skipped, gives the tree back (`ofLexemes_units`).  The units need not have come in that order, since an
operand can be put in front of operators that were there before it, and reduced operators are among
the units no longer.

The induction is on the tree.  The units on the left side of an operator build that side, the operator
takes all of it (`add_operator_of_le`), and from then on every unit of the right side finds its way
down to where it was built from nothing (`foldlM_add_node`).
-/

namespace FilterLang.Tree

variable {ρ : Type}

/-! ## Units that pass by -/

/-- Whether a unit, merged into an operator with this left side, goes on to the right side and leaves
the operator where it is. -/
def PassesBy (op : Operator ρ) (left : Tree ρ) : Lexeme ρ → Prop
  | .operand _ => left ≠ hole ∧ op.kind = .binary
  | .operator o => op.weight < o.weight

/-- What stands on the right side of a proper operator passes by it. -/
theorem passesBy_of_proper {op : Operator ρ} {left right : Tree ρ} (h : Proper op left right) :
    ∀ v ∈ right.units, PassesBy op left v := by
  intro v hv
  cases v with
  | operand x =>
    -- there would be no operand if the left side were missing or the operator transforming
    have hsome : right.operands ≠ [] := List.ne_nil_of_mem (mem_operands_of_mem_units hv)
    constructor
    · intro hhole
      exact hsome (h.left_first hhole)
    · by_contra hne
      exact hsome (h.reduced hne)
  | operator o => exact h.lt_right o (mem_operators_of_mem_units hv)

variable [Reducer ρ]

/-! ## One unit -/

/-- An operator takes a tree in which nothing weighs less as its left side. -/
theorem add_operator_of_le {op : Operator ρ} {t : Tree ρ} (h : ∀ o ∈ t.operators, op.weight ≤ o.weight) :
    t.add (.operator op) = .ok (node op t hole) := by
  cases t with
  | hole => rfl
  | leaf x => exact addOperator_leaf op x
  | node top l r =>
    have hle : op.weight ≤ top.weight := h top (by simp [operators])
    exact addOperator_node_of_not_lt (UInt32.not_lt.2 hle)

theorem add_node_of_passesBy {op : Operator ρ} {left r r' : Tree ρ} {v : Lexeme ρ}
    (hv : PassesBy op left v) (h : r.add v = .ok r') :
    (node op left r).add v = .ok (node op left r') := by
  cases v with
  | operand x =>
    obtain ⟨hleft, hkind⟩ := hv
    have hthere : left.isHole = false := by
      rw [Bool.eq_false_iff, ne_eq, isHole_iff]
      exact hleft
    have hput : addOperand x (node op left r) = settle op left r' := addOperand_node hthere h
    rw [settle_binary hkind] at hput
    exact hput
  | operator o => exact addOperator_node_of_lt hv h

/-! ## Whole trees -/

/-- Units that all pass by an operator build on its right side what they build without it. -/
theorem foldlM_add_node {op : Operator ρ} {left r r' : Tree ρ} {vs : List (Lexeme ρ)}
    (hvs : ∀ v ∈ vs, PassesBy op left v) (h : vs.foldlM add r = .ok r') :
    vs.foldlM add (node op left r) = .ok (node op left r') := by
  induction vs generalizing r with
  | nil =>
    cases h
    rfl
  | cons v vs ih =>
    obtain ⟨hv, hrest⟩ := List.forall_mem_cons.1 hvs
    rw [List.foldlM_cons] at h ⊢
    obtain ⟨next, hnext, hgo⟩ := except_bind_eq_ok_iff.1 h
    rw [add_node_of_passesBy hv hnext]
    exact ih hrest hgo

theorem ofLexemes_units_of_regular {t : Tree ρ} (ht : t.Regular) : ofLexemes t.units = .ok t := by
  induction t with
  | hole => rfl
  | leaf x => rfl
  | node op left right ihleft ihright =>
    obtain ⟨hproper, hleft, hright⟩ := ht
    have hfront : ofLexemes left.units = .ok left := ihleft hleft
    have hback : right.units.foldlM add hole = .ok right := ihright hright
    calc ofLexemes (node op left right).units
        = (Lexeme.operator op :: right.units).foldlM add left := by
          rw [units, ofLexemes_append, hfront]
          rfl
      _ = right.units.foldlM add (node op left hole) := by
          rw [List.foldlM_cons, add_operator_of_le hproper.le_left]
          rfl
      _ = .ok (node op left right) := foldlM_add_node (passesBy_of_proper hproper) hback

/-- Whatever a tree was built from, its own units build it too, and none of them is refused on the
way. -/
theorem ofLexemes_units {us : List (Lexeme ρ)} {t : Tree ρ} (h : ofLexemes us = .ok t) :
    (∀ vs, vs <+: t.units → ∃ u, ofLexemes vs = .ok u) ∧ ofLexemes t.units = .ok t := by
  have hagain : ofLexemes t.units = .ok t := ofLexemes_units_of_regular (regular_ofLexemes h)
  constructor
  · intro vs hpre
    exact exists_ofLexemes_of_prefix hpre hagain
  · exact hagain

/-- `and . {a} 5`, in which the operators come first: the tree is read as `{a} and 5 .`, a point that
still waits for its digits. -/
theorem ofLexemes_units_operatorsFirst :
    let conj : Operator PointRule := ⟨"and", 10, .binary⟩
    let point : Operator PointRule := ⟨".", 30, .transform [.join]⟩
    let five : Operand := .literal "5" (.integer 5)
    let us : List (Lexeme PointRule) :=
      [.operator conj, .operator point, .operand (.field "a"), .operand five]
    let t : Tree PointRule := node conj (leaf (.field "a")) (node point (leaf five) hole)
    ofLexemes us = .ok t ∧ t.units ≠ us ∧ ofLexemes t.units = .ok t := by
  intro conj point five us t
  have hbuilt : ofLexemes us = .ok t := by rfl
  have hother : t.units ≠ us := by decide
  exact ⟨hbuilt, hother, (ofLexemes_units hbuilt).2⟩

end FilterLang.Tree
