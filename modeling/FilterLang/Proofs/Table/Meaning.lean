import FilterLang.Proofs.Table.Evaluation

/-!
# The meaning of an expression on a row

What an expression says about a row can be read off its tree directly: an operand has a value, `=`
compares two values, and "and" and "or" join what their sides say.  `Tree.holdsOn` does so; it knows
nothing of conditions, column positions or vocabularies.

Binding a tree to a table gives a condition with the same meaning (`Table.bind_preserves_meaning`).
The induction is over the tree, and its invariant is `Denotes`: whatever the tree is bound to, read as
a side of a comparison and read as a condition, says the same as the tree.
-/

namespace FilterLang

variable {ρ : Type}

/-! ## Direct meaning -/

section Meaning

variable (columns : List String) (row : List Value)

/-- The value of an operand on a row: a constant is its own value, and a field has the cell of the first
column with its name, if there is one. -/
def Operand.valueOn : Operand → Option Value
  | literal _ value => some value.toValue
  | field reference => (columns.zip row).lookup reference.name

namespace Tree

/-- The value of a tree that is a single operand. -/
def valueOn : Tree ρ → Option Value
  | hole => none
  | leaf x => x.valueOn columns row
  | node _ _ _ => none

/-- Whether the expression holds on the row.  An operand by itself holds if its value is `true`. -/
def holdsOn : Tree ρ → Bool
  | hole => false
  | leaf x => x.valueOn columns row == some (.boolean true)
  | node op left right =>
    if op.token = "=" then
      match left.valueOn columns row, right.valueOn columns row with
      | some a, some b => a.agrees b
      | _, _ => false
    else if op.token = "and" then left.holdsOn && right.holdsOn
    else if op.token = "or" then left.holdsOn || right.holdsOn
    else false

end Tree

end Meaning

/-- An empty cell agrees with nothing, so a value that is missing may be taken for one. -/
theorem agrees_getD_null (a b : Option Value) :
    (a.getD .null).agrees (b.getD .null) =
      match a, b with
      | some a, some b => a.agrees b
      | _, _ => false := by
  cases a with
  | none => rfl
  | some a =>
    cases b with
    | none => cases a <;> rfl
    | some b => rfl

/-- The first column with a name stands at the first position of the name. -/
theorem lookup_zip_of_idxOf? {columns : List String} {name : String} {index : Nat}
    (h : columns.idxOf? name = some index) (row : List Value) :
    (columns.zip row).lookup name = row[index]? := by
  induction columns generalizing index row with
  | nil => simp at h
  | cons column columns ih =>
    cases row with
    | nil => simp
    | cons v row =>
      rw [List.idxOf?_cons] at h
      by_cases hname : column = name
      · simp only [hname, beq_self_eq_true, if_true, Option.some.injEq] at h
        subst h
        simp [hname]
      · have hne : (name == column) = false := by simpa using Ne.symm hname
        simp only [beq_eq_false_iff_ne.2 hname, Bool.false_eq_true, if_false,
          Option.map_eq_some_iff] at h
        obtain ⟨i, hi, rfl⟩ := h
        simp [List.lookup_cons, hne, ih hi]

/-! ## What binding preserves -/

/-- The operand says on every row of the table what the tree says: as a side of a comparison it has
the tree's value, and as a condition it holds where the tree does. -/
structure Denotes (t : Table) (tree : Tree ρ) (b : TableOperand) : Prop where
  value : ∀ term, b.term? = some term → ∀ row,
    term.value row = (tree.valueOn t.columns row).getD .null
  holds : ∀ c, b.condition? = some c → ∀ row, c.holds row = tree.holdsOn t.columns row

namespace Denotes

variable {t : Table}

theorem literal (text : String) (value : Literal) :
    Denotes t (.leaf (.literal text value) : Tree ρ) (.literal value) where
  value := by
    intro term hterm row
    cases hterm
    rfl
  holds := by
    intro c hc row
    cases value with
    | boolean value =>
      cases hc
      cases value <;> rfl
    | integer value => cases hc
    | decimal value => cases hc
    | string value => cases hc

theorem field {reference : Reference} {index : Nat} (h : t.indexOf? reference.name = some index) :
    Denotes t (.leaf (.field reference) : Tree ρ) (.location ⟨index, reference.name⟩) where
  value := by
    intro term hterm row
    cases hterm
    simp only [Term.value, Tree.valueOn, Operand.valueOn]
    rw [lookup_zip_of_idxOf? h]
  holds := by
    intro c hc row
    cases hc
    simp only [Condition.holds, Term.value, Tree.holdsOn, Operand.valueOn]
    rw [lookup_zip_of_idxOf? h]
    cases row[index]? <;> rfl

/-- A predicate says what a node does if it holds on the same rows. -/
theorem predicate {op : Operator ρ} {left right : Tree ρ} {condition : Condition}
    (h : ∀ row, condition.holds row = (Tree.node op left right).holdsOn t.columns row) :
    Denotes t (.node op left right) (.predicate condition) where
  value := by
    intro term hterm
    cases hterm
  holds := by
    intro c hc
    cases hc
    exact h

variable {left right : Tree ρ} {l r : TableOperand}

/-- The three usual operators, on operands that say what the two sides say. -/
theorem meaning {op : Operator ρ} {meaning : Meaning Id Column Condition} {condition : Condition}
    (hleft : Denotes t left l) (hright : Denotes t right r)
    (hget : Table.vocabulary.get? op.token = some meaning)
    (hcondition : (meaning l r).run.run = .ok condition) (row : List Value) :
    condition.holds row = (Tree.node op left right).holdsOn t.columns row := by
  unfold Tree.holdsOn
  rcases Table.meaning_eq_ok hget hcondition with ⟨htoken, a, b, ha, hb, rfl⟩ |
      ⟨htoken, a, b, ha, hb, rfl⟩ | ⟨htoken, a, b, ha, hb, rfl⟩
  · -- a comparison takes both sides as terms
    rw [if_pos htoken, Condition.holds, hleft.value a ha, hright.value b hb, agrees_getD_null]
  · -- "and" and "or" take them as conditions
    have hne : ¬op.token = "=" := by
      rw [htoken]
      decide
    rw [if_neg hne, if_pos htoken, Condition.holds, hleft.holds a ha, hright.holds b hb]
  · have hne : ¬op.token = "=" := by
      rw [htoken]
      decide
    have hne' : ¬op.token = "and" := by
      rw [htoken]
      decide
    rw [if_neg hne, if_neg hne', if_pos htoken, Condition.holds, hleft.holds a ha, hright.holds b hb]

end Denotes

namespace Table

variable {t : Table}

/-- Whatever a tree is bound to says what the tree says. -/
theorem denotes_of_evaluate {tree : Tree ρ} {b : TableOperand}
    (h : t.evaluate Table.vocabulary tree = .ok b) : Denotes t tree b := by
  induction tree generalizing b with
  | hole => cases h
  | leaf x =>
    cases x with
    | literal text value =>
      rw [evaluate_literal] at h
      cases h
      exact .literal text value
    | field reference =>
      obtain ⟨index, hindex, rfl⟩ := evaluate_field_eq_ok_iff.1 h
      exact .field hindex
  | node op left right ihleft ihright =>
    obtain ⟨-, -, -, meaning, l, r, condition, hget, hl, hr, hmeaning, rfl⟩ :=
      evaluate_node_eq_ok_iff.1 h
    have hholds : ∀ row, condition.holds row = (Tree.node op left right).holdsOn t.columns row :=
      Denotes.meaning (ihleft hl) (ihright hr) hget hmeaning
    exact .predicate hholds

/-- The condition that a tree is bound to holds on a row exactly if the tree does, and it selects from
the table the rows on which the tree holds, each as often as it is there and in their order. -/
theorem bind_preserves_meaning {tree : Tree ρ} {c : Condition}
    (h : t.bind Table.vocabulary tree = .ok c) :
    (∀ row, c.holds row = tree.holdsOn t.columns row) ∧
      t.select c = t.rows.filter (tree.holdsOn t.columns) := by
  have hholds : ∀ row, c.holds row = tree.holdsOn t.columns row :=
    (denotes_of_evaluate (bind_eq_ok_iff.1 h)).holds c rfl
  refine ⟨hholds, ?_⟩
  unfold select
  exact List.filter_congr fun row _ => hholds row

/-- `{views} = 25 and {active}`: an empty cell is not 25, and 1 is not `true`. -/
theorem bind_preserves_meaning_views :
    let t : Table := {
      columns := ["views", "active"]
      rows := [[.integer 25, .integer 1], [.null, .boolean true], [.integer 25, .boolean true],
        [.integer 25, .null]] }
    let tree : Tree Empty := .node ⟨"and", 10, .binary⟩
      (.node ⟨"=", 20, .binary⟩ (.leaf (.field "views")) (.leaf (.literal "25" (.integer 25))))
      (.leaf (.field "active"))
    let c : Condition := .and (.equal (.column ⟨0, "views"⟩) (.constant (.integer 25)))
      (.isTrue (.column ⟨1, "active"⟩))
    t.bind Table.vocabulary tree = .ok c ∧ t.select c = [[.integer 25, .boolean true]] := by
  intro t tree c
  have hbind : t.bind Table.vocabulary tree = .ok c := by rfl
  have hselect : t.select c = t.rows.filter (tree.holdsOn t.columns) :=
    (bind_preserves_meaning hbind).2
  refine ⟨hbind, hselect.trans ?_⟩
  decide

end Table

end FilterLang
