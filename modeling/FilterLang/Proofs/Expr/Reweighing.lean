import FilterLang.Expr.DecimalPoint
import FilterLang.Proofs.Expr.Shape

/-!
# Other weights

The weights of operators matter only by their order.  When every weight is replaced by another one, so that of
two operators the heavier one stays the heavier one, then every unit is merged as before: at the same place, with
the same error, and with the same text in the end (`Tree.add_reweigh`, `Tree.chars_reweigh`).
-/

namespace FilterLang

variable {ρ : Type}

/-! ## Renumbering -/

/-- Whether the renumbering is strictly increasing on the weights listed. -/
def Increasing (f : UInt32 → UInt32) (weights : List UInt32) : Prop :=
  ∀ v ∈ weights, ∀ w ∈ weights, v < w → f v < f w

theorem Increasing.lt_iff_lt {f : UInt32 → UInt32} {weights : List UInt32} (h : Increasing f weights)
    {v w : UInt32} (hv : v ∈ weights) (hw : w ∈ weights) : f v < f w ↔ v < w := by
  constructor
  · intro hlt
    rw [← UInt32.not_le]
    intro hle
    by_cases hgt : w < v
    · exact UInt32.lt_asymm hlt (h w hw v hv hgt)
    · obtain rfl : v = w := UInt32.le_antisymm (UInt32.not_lt.1 hgt) hle
      exact UInt32.lt_irrefl _ hlt
  · exact h v hv w hw

/-- The operator with another weight. -/
def Operator.reweigh (f : UInt32 → UInt32) (op : Operator ρ) : Operator ρ :=
  { op with weight := f op.weight }

/-- The unit with other weights. -/
def Lexeme.reweigh (f : UInt32 → UInt32) : Lexeme ρ → Lexeme ρ
  | operand x => operand x
  | operator op => operator (op.reweigh f)

/-- The tree with other weights. -/
def Tree.reweigh (f : UInt32 → UInt32) : Tree ρ → Tree ρ
  | hole => hole
  | leaf x => leaf x
  | node op left right => node (op.reweigh f) (left.reweigh f) (right.reweigh f)

variable {f : UInt32 → UInt32}

@[simp] theorem Operator.token_reweigh (op : Operator ρ) : (op.reweigh f).token = op.token := rfl

@[simp] theorem Operator.weight_reweigh (op : Operator ρ) : (op.reweigh f).weight = f op.weight := rfl

@[simp] theorem Operator.kind_reweigh (op : Operator ρ) : (op.reweigh f).kind = op.kind := rfl

@[simp] theorem Lexeme.isOperator_reweigh (u : Lexeme ρ) : (u.reweigh f).isOperator = u.isOperator := by
  cases u <;> rfl

namespace Tree

@[simp] theorem reweigh_hole : (hole : Tree ρ).reweigh f = hole := rfl

@[simp] theorem reweigh_leaf (x : Operand) : (leaf x : Tree ρ).reweigh f = leaf x := rfl

@[simp] theorem reweigh_node (op : Operator ρ) (left right : Tree ρ) :
    (node op left right).reweigh f = node (op.reweigh f) (left.reweigh f) (right.reweigh f) := rfl

/-! ## What does not depend on weights -/

@[simp] theorem isHole_reweigh (t : Tree ρ) : (t.reweigh f).isHole = t.isHole := by
  cases t <;> rfl

@[simp] theorem label_reweigh (t : Tree ρ) : (t.reweigh f).label = t.label := by
  cases t <;> rfl

@[simp] theorem pending_reweigh (t : Tree ρ) : (t.reweigh f).pending = t.pending := by
  induction t with
  | hole => rfl
  | leaf _ => rfl
  | node _ left right _ ih => simp [pending, ih]

@[simp] theorem integerText?_reweigh (t : Tree ρ) : (t.reweigh f).integerText? = t.integerText? := by
  cases t <;> rfl

/-- The canonical form shows no weights. -/
@[simp] theorem chars_reweigh (t : Tree ρ) : (t.reweigh f).chars = t.chars := by
  induction t with
  | hole => rfl
  | leaf _ => rfl
  | node _ _ _ ihleft ihright => simp [chars, ihleft, ihright]

theorem toString_reweigh (t : Tree ρ) : toString (t.reweigh f) = toString t :=
  congrArg String.ofList t.chars_reweigh

end Tree

/-- Whether the rules that reduce are blind to weights: they make the same of the same operands. -/
class WeightBlind (ρ : Type) [Reducer ρ] : Prop where
  reduce_reweigh : ∀ (f : UInt32 → UInt32) (rule : ρ) (left right : Tree ρ),
    Reducer.reduce rule (left.reweigh f) (right.reweigh f) = Reducer.reduce rule left right

instance : WeightBlind PointRule where
  reduce_reweigh f rule left right := by
    show joinAsDecimal _ _ = joinAsDecimal _ _
    simp only [joinAsDecimal, Tree.integerText?_reweigh]

/-! ## Merging -/

namespace Tree

variable [Reducer ρ] [WeightBlind ρ]

theorem settle_reweigh (op : Operator ρ) (left right : Tree ρ) :
    settle (op.reweigh f) (left.reweigh f) (right.reweigh f) =
      (settle op left right).map (reweigh f) := by
  unfold settle
  simp only [Operator.kind_reweigh, Operator.token_reweigh, isHole_reweigh, label_reweigh,
    WeightBlind.reduce_reweigh]
  split
  · rfl
  · split
    · rfl
    · split <;> rfl

theorem addOperand_reweigh (x : Operand) (t : Tree ρ) :
    addOperand x (t.reweigh f) = (addOperand x t).map (reweigh f) := by
  induction t with
  | hole => rfl
  | leaf _ => rfl
  | node op left right _ ih =>
    simp only [reweigh_node, addOperand, isHole_reweigh, pending_reweigh, ih]
    split
    · exact settle_reweigh op (leaf x) right
    · split
      · cases addOperand x right with
        | error e => rfl
        | ok r => exact settle_reweigh op left r
      · rfl

/-- An operator goes to the same place, if it is compared as before with the operators that are there. -/
theorem addOperator_reweigh {op : Operator ρ} (left right : Tree ρ) {t : Tree ρ}
    (h : ∀ o ∈ t.operators, (f o.weight < f op.weight ↔ o.weight < op.weight)) :
    addOperator (op.reweigh f) (left.reweigh f) (right.reweigh f) (t.reweigh f) =
      (addOperator op left right t).map (reweigh f) := by
  induction t with
  | hole => rfl
  | leaf x => exact addOperand_reweigh x (node op left right)
  | node top l r _ ih =>
    have htop : f top.weight < f op.weight ↔ top.weight < op.weight :=
      h top (by simp [operators])
    have hright := ih fun o ho => h o (by simp [operators, ho])
    simp only [reweigh_node, addOperator, Operator.weight_reweigh, htop, hright]
    split
    · cases addOperator op left right r with
      | error e => rfl
      | ok r' => rfl
    · rfl

/-- The next unit is merged as before, if an operator is compared as before. -/
theorem add_reweigh {t : Tree ρ} {u : Lexeme ρ}
    (h : ∀ op, u = .operator op → ∀ o ∈ t.operators,
      (f o.weight < f op.weight ↔ o.weight < op.weight)) :
    (t.reweigh f).add (u.reweigh f) = (t.add u).map (reweigh f) := by
  cases u with
  | operand x => exact addOperand_reweigh x t
  | operator op => exact addOperator_reweigh hole hole (h op rfl)

end Tree

end FilterLang
