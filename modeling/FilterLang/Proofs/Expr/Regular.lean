import FilterLang.Expr.DecimalPoint
import FilterLang.Proofs.Expr.Shape
import Mathlib.Data.List.Induction

/-!
# Trees of any sequence of units

Operators may come first or in a row, and operands may stay away: what is merged need not be a chain.
Still, four things hold at every operator of the tree (`Proper`), and merging any unit keeps them
(`regular_add`).  From them it follows that no unit of a sequence without transforming operators is
lost or overtakes another of its class (`ofLexemes_inOrder`).

An operand is put into the first missing left side on the right spine.  It stays behind all operands
in front of it only because no operand stands to the right of a missing left side; so the order rests
on that part of the invariant.
-/

namespace FilterLang

variable {ρ : Type}

/-! ## Classes of units -/

/-- The operand that the unit is, if it is one. -/
def Lexeme.operand? : Lexeme ρ → Option Operand
  | operand x => some x
  | operator _ => none

/-- The operator that the unit is, if it is one. -/
def Lexeme.operator? : Lexeme ρ → Option (Operator ρ)
  | operand _ => none
  | operator op => some op

theorem Lexeme.operator?_eq_some_iff {u : Lexeme ρ} {op : Operator ρ} :
    u.operator? = some op ↔ u = .operator op := by
  cases u with
  | operand x => simp [operator?]
  | operator o => simp [operator?]

namespace Tree

/-- The operands of the tree from left to right. -/
def operands : Tree ρ → List Operand
  | hole => []
  | leaf x => [x]
  | node _ left right => left.operands ++ right.operands

theorem operands_eq_filterMap_units (t : Tree ρ) : t.operands = t.units.filterMap Lexeme.operand? := by
  induction t with
  | hole => rfl
  | leaf _ => rfl
  | node op left right ihleft ihright =>
    rw [operands, units, List.filterMap_append, ihleft, ihright]
    rfl

theorem operators_eq_filterMap_units (t : Tree ρ) :
    t.operators = t.units.filterMap Lexeme.operator? := by
  induction t with
  | hole => rfl
  | leaf _ => rfl
  | node op left right ihleft ihright =>
    rw [operators, units, List.filterMap_append, ihleft, ihright]
    rfl

theorem mem_operators_of_mem_units {op : Operator ρ} {t : Tree ρ} (h : .operator op ∈ t.units) :
    op ∈ t.operators := by
  rw [operators_eq_filterMap_units]
  exact List.mem_filterMap.2 ⟨.operator op, h, rfl⟩

theorem mem_operands_of_mem_units {x : Operand} {t : Tree ρ} (h : .operand x ∈ t.units) :
    x ∈ t.operands := by
  rw [operands_eq_filterMap_units]
  exact List.mem_filterMap.2 ⟨.operand x, h, rfl⟩

/-! ## Regular trees -/

/-- Where an operator lacks its left side, no operand stands anywhere on its right side. -/
def LeftFirst : Tree ρ → Prop
  | hole => True
  | leaf _ => True
  | node _ left right => (left = hole → right.operands = []) ∧ left.LeftFirst ∧ right.LeftFirst

/-- What holds of an operator in a tree and of what stands on its two sides. -/
structure Proper (op : Operator ρ) (left right : Tree ρ) : Prop where
  le_left : ∀ o ∈ left.operators, op.weight ≤ o.weight
  lt_right : ∀ o ∈ right.operators, op.weight < o.weight
  left_first : left = hole → right.operands = []
  /-- A transforming operator is reduced before an operand comes to stand on its right side. -/
  reduced : op.kind ≠ .binary → right.operands = []

/-- A tree in which everything is proper. -/
def Regular : Tree ρ → Prop
  | hole => True
  | leaf _ => True
  | node op left right => Proper op left right ∧ left.Regular ∧ right.Regular

theorem graded_of_regular {t : Tree ρ} (h : t.Regular) : t.Graded := by
  induction t with
  | hole => trivial
  | leaf _ => trivial
  | node op left right ihleft ihright =>
    obtain ⟨hproper, hleft, hright⟩ := h
    exact ⟨hproper.le_left, hproper.lt_right, ihleft hleft, ihright hright⟩

theorem leftFirst_of_regular {t : Tree ρ} (h : t.Regular) : t.LeftFirst := by
  induction t with
  | hole => trivial
  | leaf _ => trivial
  | node op left right ihleft ihright =>
    obtain ⟨hproper, hleft, hright⟩ := h
    exact ⟨hproper.left_first, ihleft hleft, ihright hright⟩

/-! ## Merging an operand -/

section Merging

variable [Reducer ρ]

/-- Operators are never moved by an operand; some are gone if they were reduced. -/
theorem operators_settle {op : Operator ρ} {left right t : Tree ρ} (h : settle op left right = .ok t) :
    List.Sublist t.operators (left.operators ++ op :: right.operators) := by
  rcases settle_eq_ok h with ⟨rfl, -⟩ | ⟨x, rfl, -⟩
  · exact List.Sublist.refl _
  · exact List.nil_sublist _

theorem operators_addOperand {x : Operand} {t u : Tree ρ} (h : addOperand x t = .ok u) :
    List.Sublist u.operators t.operators := by
  induction t generalizing u with
  | hole =>
    cases h
    exact List.Sublist.refl _
  | leaf _ => cases h
  | node op left right _ ih =>
    rcases addOperand_node_eq_ok h with ⟨rfl, hsettle⟩ | ⟨-, r, hright, hsettle⟩
    · have hsub : List.Sublist u.operators ((leaf x).operators ++ op :: right.operators) :=
        operators_settle hsettle
      exact hsub
    · have hsub : List.Sublist r.operators right.operators := ih hright
      exact (operators_settle hsettle).trans ((hsub.cons_cons op).append_left left.operators)

theorem regular_settle {op : Operator ρ} {left right t : Tree ρ} (hleft : left.Regular)
    (hright : right.Regular)
    (hproper : op.kind = .binary ∨ left = hole ∨ right = hole → Proper op left right)
    (h : settle op left right = .ok t) : t.Regular := by
  rcases settle_eq_ok h with ⟨rfl, hstays⟩ | ⟨x, rfl, -⟩
  · exact ⟨hproper hstays, hleft, hright⟩
  · trivial

theorem regular_addOperand {x : Operand} {t u : Tree ρ} (ht : t.Regular)
    (h : addOperand x t = .ok u) : u.Regular := by
  induction t generalizing u with
  | hole =>
    cases h
    trivial
  | leaf _ => cases h
  | node op left right _ ih =>
    obtain ⟨hproper, hleft, hright⟩ := ht
    rcases addOperand_node_eq_ok h with ⟨rfl, hsettle⟩ | ⟨hthere, r, hadd, hsettle⟩
    · -- the operand becomes the left side; on the right there is none
      have hnone : right.operands = [] := hproper.left_first rfl
      have hleaf : (leaf x : Tree ρ).Regular := trivial
      refine regular_settle hleaf hright ?_ hsettle
      intro _
      exact ⟨by simp [operators], hproper.lt_right, fun _ => hnone, fun _ => hnone⟩
    · -- the operand is on the right side now, so a transforming operator does not stay
      have hsub : List.Sublist r.operators right.operators := operators_addOperand hadd
      have hleft_ne : left ≠ hole := by
        rintro rfl
        cases hthere
      have hr_ne : r ≠ hole := by
        rintro rfl
        cases isHole_addOperand hadd
      refine regular_settle hleft (ih hright hadd) ?_ hsettle
      intro hstays
      have hkind : op.kind = .binary := by
        rcases hstays with hkind | hhole | hhole
        · exact hkind
        · exact absurd hhole hleft_ne
        · exact absurd hhole hr_ne
      exact ⟨hproper.le_left, fun o ho => hproper.lt_right o (hsub.subset ho),
        fun hhole => absurd hhole hleft_ne, fun hne => absurd hkind hne⟩

/-- With binary operators only, an operand comes to stand behind all the others. -/
theorem operands_addOperand {x : Operand} {t u : Tree ρ} (ht : t.Regular)
    (hbinary : ∀ o ∈ t.operators, o.kind = .binary) (h : addOperand x t = .ok u) :
    u.operands = t.operands ++ [x] ∧ u.operators = t.operators := by
  induction t generalizing u with
  | hole =>
    cases h
    exact ⟨rfl, rfl⟩
  | leaf _ => cases h
  | node op left right _ ih =>
    obtain ⟨hproper, -, hright⟩ := ht
    have hop : op.kind = .binary := hbinary op (by simp [operators])
    rcases addOperand_node_eq_ok h with ⟨rfl, hsettle⟩ | ⟨-, r, hadd, hsettle⟩
    · rw [settle_binary hop] at hsettle
      cases hsettle
      have hnone : right.operands = [] := hproper.left_first rfl
      simp [operands, operators, hnone]
    · rw [settle_binary hop] at hsettle
      cases hsettle
      have hbinary' : ∀ o ∈ right.operators, o.kind = .binary := by
        intro o ho
        exact hbinary o (by simp [operators, ho])
      obtain ⟨hoperands, hoperators⟩ := ih hright hbinary' hadd
      simp [operands, operators, hoperands, hoperators]

/-! ## Merging an operator -/

/-- An operator comes to stand behind all the others, and no operand is moved. -/
theorem units_addOperator {op : Operator ρ} {t u : Tree ρ} (h : addOperator op hole hole t = .ok u) :
    u.operands = t.operands ∧ u.operators = t.operators ++ [op] := by
  induction t generalizing u with
  | hole =>
    cases h
    exact ⟨rfl, rfl⟩
  | leaf x =>
    rw [addOperator_leaf] at h
    cases h
    exact ⟨rfl, rfl⟩
  | node top l r _ ih =>
    rcases addOperator_node_eq_ok h with ⟨-, r', hadd, rfl⟩ | ⟨-, rfl⟩
    · obtain ⟨hoperands, hoperators⟩ := ih hadd
      simp [operands, operators, hoperands, hoperators]
    · simp [operands, operators]

theorem regular_addOperator {op : Operator ρ} {t u : Tree ρ} (ht : t.Regular)
    (h : addOperator op hole hole t = .ok u) : u.Regular := by
  have hbare : ∀ l : Tree ρ, (∀ o ∈ l.operators, op.weight ≤ o.weight) → Proper op l hole := by
    intro l hl
    exact ⟨hl, by simp [operators], fun _ => rfl, fun _ => rfl⟩
  induction t generalizing u with
  | hole =>
    cases h
    exact ⟨hbare hole (by simp [operators]), trivial, trivial⟩
  | leaf x =>
    rw [addOperator_leaf] at h
    cases h
    exact ⟨hbare (leaf x) (by simp [operators]), trivial, trivial⟩
  | node top l r _ ih =>
    obtain ⟨hproper, hl, hr⟩ := ht
    rcases addOperator_node_eq_ok h with ⟨hlt, r', hadd, rfl⟩ | ⟨hge, rfl⟩
    · obtain ⟨hoperands, hoperators⟩ := units_addOperator hadd
      refine ⟨⟨hproper.le_left, ?_, ?_, ?_⟩, hl, ih hr hadd⟩
      · intro o ho
        rw [hoperators, List.mem_append, List.mem_singleton] at ho
        rcases ho with ho | rfl
        · exact hproper.lt_right o ho
        · exact hlt
      · rw [hoperands]
        exact hproper.left_first
      · rw [hoperands]
        exact hproper.reduced
    · -- nothing in the tree weighs less than its root, which weighs at least as much as the operator
      have hle : op.weight ≤ top.weight := UInt32.not_lt.1 hge
      refine ⟨hbare _ ?_, ⟨hproper, hl, hr⟩, trivial⟩
      intro o ho
      simp only [operators, List.mem_append, List.mem_cons] at ho
      rcases ho with ho | rfl | ho
      · exact UInt32.le_trans hle (hproper.le_left o ho)
      · exact hle
      · exact UInt32.le_trans hle (UInt32.le_of_lt (hproper.lt_right o ho))

/-! ## Sequences -/

theorem regular_add {t u : Tree ρ} {v : Lexeme ρ} (ht : t.Regular) (h : t.add v = .ok u) :
    u.Regular := by
  cases v with
  | operand x => exact regular_addOperand ht h
  | operator op => exact regular_addOperator ht h

/-- Every tree that comes of merging is regular. -/
theorem regular_ofLexemes {us : List (Lexeme ρ)} {t : Tree ρ} (h : ofLexemes us = .ok t) :
    t.Regular := by
  have hstart : (hole : Tree ρ).Regular := trivial
  exact foldlM_preserves (fun _ _ _ ht hadd => regular_add ht hadd) hstart h

/-- One more unit is the last of its class. -/
theorem units_add {t u : Tree ρ} {v : Lexeme ρ} (ht : t.Regular)
    (hbinary : ∀ o ∈ t.operators, o.kind = .binary) (h : t.add v = .ok u) :
    u.operands = t.operands ++ v.operand?.toList ∧ u.operators = t.operators ++ v.operator?.toList := by
  cases v with
  | operand x =>
    obtain ⟨hoperands, hoperators⟩ := operands_addOperand ht hbinary h
    exact ⟨hoperands, by rw [hoperators]; exact (List.append_nil _).symm⟩
  | operator op =>
    obtain ⟨hoperands, hoperators⟩ := units_addOperator h
    exact ⟨by rw [hoperands]; exact (List.append_nil _).symm, hoperators⟩

/-- With binary operators only, the units of each class are merged in the order in which they come. -/
theorem units_ofLexemes {us : List (Lexeme ρ)}
    (hbinary : ∀ op, .operator op ∈ us → op.kind = .binary) {t : Tree ρ} (h : ofLexemes us = .ok t) :
    t.operands = us.filterMap Lexeme.operand? ∧ t.operators = us.filterMap Lexeme.operator? := by
  induction us using List.reverseRecOn generalizing t with
  | nil =>
    cases h
    exact ⟨rfl, rfl⟩
  | append_singleton us v ih =>
    obtain ⟨front, hfront, hlast⟩ := ofLexemes_append_singleton_eq_ok_iff.1 h
    have hbinary' : ∀ op, .operator op ∈ us → op.kind = .binary := by
      intro op hop
      exact hbinary op (List.mem_append_left _ hop)
    obtain ⟨hoperands, hoperators⟩ := ih hbinary' hfront
    have hkinds : ∀ o ∈ front.operators, o.kind = .binary := by
      intro o ho
      rw [hoperators, List.mem_filterMap] at ho
      obtain ⟨u, hu, huo⟩ := ho
      exact hbinary' o (Lexeme.operator?_eq_some_iff.1 huo ▸ hu)
    obtain ⟨hlastOperand, hlastOperator⟩ := units_add (regular_ofLexemes hfront) hkinds hlast
    rw [hlastOperand, hlastOperator, hoperands, hoperators, List.filterMap_append,
      List.filterMap_append]
    cases v with
    | operand _ => exact ⟨rfl, rfl⟩
    | operator _ => exact ⟨rfl, rfl⟩

/-- Whatever operands and binary operators are merged, in any order: the weights of the tree grow from
the root to the leaves, no operand stands to the right of a missing left side, and read from left to
right the tree has all the operands and all the operators in the order in which they came. -/
theorem ofLexemes_inOrder {us : List (Lexeme ρ)}
    (hbinary : ∀ op, .operator op ∈ us → op.kind = .binary) {t : Tree ρ} (h : ofLexemes us = .ok t) :
    t.Graded ∧ t.LeftFirst ∧
      t.units.filterMap Lexeme.operand? = us.filterMap Lexeme.operand? ∧
      t.units.filterMap Lexeme.operator? = us.filterMap Lexeme.operator? := by
  have hregular : t.Regular := regular_ofLexemes h
  obtain ⟨hoperands, hoperators⟩ := units_ofLexemes hbinary h
  rw [operands_eq_filterMap_units] at hoperands
  rw [operators_eq_filterMap_units] at hoperators
  exact ⟨graded_of_regular hregular, leftFirst_of_regular hregular, hoperands, hoperators⟩

/-- Two operators in a row, and a lighter one after the operand: the holes of the second stay where they
are when the third takes everything as its left side. -/
theorem ofLexemes_inOrder_buried :
    let conj : Operator PointRule := ⟨"and", 10, .binary⟩
    let equal : Operator PointRule := ⟨"=", 20, .binary⟩
    let disj : Operator PointRule := ⟨"or", 10, .binary⟩
    let us : List (Lexeme PointRule) :=
      [.operator conj, .operator equal, .operand (.field "a"), .operator disj, .operand (.field "b")]
    let t : Tree PointRule :=
      node disj (node conj (leaf (.field "a")) (node equal hole hole)) (leaf (.field "b"))
    (∀ op, .operator op ∈ us → op.kind = .binary) ∧ ofLexemes us = .ok t ∧
      t.Graded ∧ t.LeftFirst ∧
      t.units.filterMap Lexeme.operand? = [.field "a", .field "b"] ∧
      t.units.filterMap Lexeme.operator? = [conj, equal, disj] := by
  intro conj equal disj us t
  have hbinary : ∀ op, .operator op ∈ us → op.kind = .binary := by
    intro op hop
    simp only [us, List.mem_cons, Lexeme.operator.injEq, reduceCtorEq, List.not_mem_nil, or_false,
      false_or] at hop
    rcases hop with rfl | rfl | rfl
    · rfl
    · rfl
    · rfl
  have hbuilt : ofLexemes us = .ok t := by rfl
  exact ⟨hbinary, hbuilt, ofLexemes_inOrder hbinary hbuilt⟩

end Merging

end Tree

end FilterLang
