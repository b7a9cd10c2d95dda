import FilterLang.Proofs.Table.Evaluation

/-!
# Columns of a condition

A condition refers to a column by its position and keeps the name beside it.  Binding finds every position
by its name (`Table.indexOf?_of_evaluate`), so position and name agree on the table that was bound to, and
no reference leads past the end of its rows.

Tables with the same names, in whatever order, bind a tree to the same condition up to the positions of its
columns, or refuse it for the same cause (`Table.bind_place`).
-/

namespace FilterLang

variable {ρ : Type}

/-! ## References -/

/-- The columns that a term refers to. -/
def Term.columns : Term → List Column
  | column c => [c]
  | constant _ => []

/-- The columns that a condition refers to, from left to right. -/
def Condition.columns : Condition → List Column
  | equal left right => left.columns ++ right.columns
  | isTrue term => term.columns
  | and left right => left.columns ++ right.columns
  | or left right => left.columns ++ right.columns

/-- The columns that an operand refers to. -/
def Bound.columns : TableOperand → List Column
  | literal _ => []
  | location column => [column]
  | predicate condition => condition.columns

theorem Bound.columns_of_term? {b : TableOperand} {term : Term} (h : b.term? = some term) :
    term.columns = b.columns := by
  cases b with
  | literal value =>
    cases h
    rfl
  | location column =>
    cases h
    rfl
  | predicate condition => cases h

theorem Bound.columns_of_condition? {b : TableOperand} {c : Condition} (h : b.condition? = some c) :
    c.columns = b.columns := by
  cases b with
  | literal value =>
    cases value with
    | boolean value =>
      cases h
      rfl
    | integer value => cases h
    | decimal value => cases h
    | string value => cases h
  | location column =>
    cases h
    rfl
  | predicate condition =>
    cases h
    rfl

namespace Table

variable {t u : Table}

/-- An operator refers to the columns of its operands and to no others. -/
theorem columns_of_meaning {token : String} {meaning : Meaning Id Column Condition}
    {l r : TableOperand} {c : Condition} (hget : Table.vocabulary.get? token = some meaning)
    (hmeaning : (meaning l r).run.run = .ok c) : c.columns = l.columns ++ r.columns := by
  rcases meaning_eq_ok hget hmeaning with ⟨-, a, b, ha, hb, rfl⟩ | ⟨-, a, b, ha, hb, rfl⟩ |
      ⟨-, a, b, ha, hb, rfl⟩
  · rw [Condition.columns, Bound.columns_of_term? ha, Bound.columns_of_term? hb]
  · rw [Condition.columns, Bound.columns_of_condition? ha, Bound.columns_of_condition? hb]
  · rw [Condition.columns, Bound.columns_of_condition? ha, Bound.columns_of_condition? hb]

/-- Every column referred to is the first one of its name. -/
theorem indexOf?_of_evaluate {tree : Tree ρ} {b : TableOperand}
    (h : t.evaluate Table.vocabulary tree = .ok b) :
    ∀ c ∈ b.columns, t.indexOf? c.name = some c.index := by
  induction tree generalizing b with
  | hole => cases h
  | leaf x =>
    cases x with
    | literal text value =>
      rw [evaluate_literal] at h
      cases h
      simp [Bound.columns]
    | field reference =>
      obtain ⟨index, hindex, rfl⟩ := evaluate_field_eq_ok_iff.1 h
      simpa [Bound.columns] using hindex
  | node op left right ihleft ihright =>
    obtain ⟨-, -, -, meaning, l, r, condition, hget, hl, hr, hmeaning, rfl⟩ :=
      evaluate_node_eq_ok_iff.1 h
    intro c hc
    rw [Bound.columns, columns_of_meaning hget hmeaning, List.mem_append] at hc
    rcases hc with hc | hc
    · exact ihleft hl c hc
    · exact ihright hr c hc

theorem indexOf?_of_bind {tree : Tree ρ} {c : Condition} (h : t.bind Table.vocabulary tree = .ok c) :
    ∀ col ∈ c.columns, t.indexOf? col.name = some col.index :=
  indexOf?_of_evaluate (bind_eq_ok_iff.1 h)

/-- What stands at the position at which a name was found is that name. -/
theorem getElem?_of_indexOf? {name : String} {index : Nat} (h : t.indexOf? name = some index) :
    t.columns[index]? = some name := by
  obtain ⟨hlt, hname, -⟩ := List.idxOf?_eq_some_iff.1 h
  rw [List.getElem?_eq_getElem hlt, hname]

theorem isSome_indexOf?_iff {name : String} : (t.indexOf? name).isSome = true ↔ name ∈ t.columns :=
  List.isSome_idxOf?

/-! ## Tables with the same columns in the same order -/

/-- Rows have no part in binding. -/
theorem bind_eq_of_columns_eq {vocabulary : Vocabulary Id Column Condition}
    (h : t.columns = u.columns) (tree : Tree ρ) : t.bind vocabulary tree = u.bind vocabulary tree := by
  have hlocate : t.locate = u.locate := by
    funext name
    unfold locate indexOf?
    rw [h]
  unfold bind
  rw [hlocate]

end Table

/-! ## Moving columns -/

section Moving

variable (move : Column → Column)

/-- The term with its column moved. -/
def Term.relocate : Term → Term
  | column c => column (move c)
  | constant v => constant v

/-- The condition with its columns moved. -/
def Condition.relocate : Condition → Condition
  | equal left right => equal (left.relocate move) (right.relocate move)
  | isTrue term => isTrue (term.relocate move)
  | and left right => and left.relocate right.relocate
  | or left right => or left.relocate right.relocate

/-- The operand with its columns moved. -/
def Bound.relocate : TableOperand → TableOperand
  | literal value => literal value
  | location column => location (move column)
  | predicate condition => predicate (condition.relocate move)

theorem Bound.type_relocate (b : TableOperand) : (b.relocate move).type = b.type := by
  cases b with
  | literal value => rfl
  | location column => rfl
  | predicate condition => rfl

theorem Bound.term?_relocate (b : TableOperand) :
    (b.relocate move).term? = b.term?.map (Term.relocate move) := by
  cases b with
  | literal value => rfl
  | location column => rfl
  | predicate condition => rfl

theorem Bound.condition?_relocate (b : TableOperand) :
    (b.relocate move).condition? = b.condition?.map (Condition.relocate move) := by
  cases b with
  | literal value => cases value <;> rfl
  | location column => rfl
  | predicate condition => rfl

variable {move}

/-- A term has the same value on a row in which its columns are at their new positions. -/
theorem Term.value_relocate {row row' : List Value} {term : Term}
    (h : ∀ c ∈ term.columns, row'[(move c).index]? = row[c.index]?) :
    (term.relocate move).value row' = term.value row := by
  cases term with
  | column c => simp only [relocate, value, h c (by simp [columns])]
  | constant v => rfl

theorem Condition.holds_relocate {row row' : List Value} {c : Condition}
    (h : ∀ col ∈ c.columns, row'[(move col).index]? = row[col.index]?) :
    (c.relocate move).holds row' = c.holds row := by
  induction c with
  | equal left right =>
    simp only [columns, List.forall_mem_append] at h
    rw [relocate, holds, holds, Term.value_relocate h.1, Term.value_relocate h.2]
  | isTrue term => rw [relocate, holds, holds, Term.value_relocate h]
  | and left right ihleft ihright =>
    simp only [columns, List.forall_mem_append] at h
    rw [relocate, holds, holds, ihleft h.1, ihright h.2]
  | or left right ihleft ihright =>
    simp only [columns, List.forall_mem_append] at h
    rw [relocate, holds, holds, ihleft h.1, ihright h.2]

namespace Table

/-- A meaning that takes operands wherever their columns are makes the same of them there. -/
theorem combine_relocate {α : Type} {operator : String} {take? : TableOperand → Option α}
    {make : α → α → Condition} {f : α → α}
    (htake : ∀ b, take? (b.relocate move) = (take? b).map f)
    (hmake : ∀ a b, make (f a) (f b) = (make a b).relocate move) (l r : TableOperand) :
    (combine operator take? make (l.relocate move) (r.relocate move)).run.run =
      ((combine operator take? make l r).run.run).map (Condition.relocate move) := by
  unfold combine
  rw [htake, htake, Bound.type_relocate, Bound.type_relocate]
  cases take? l with
  | none => rfl
  | some a =>
    cases take? r with
    | none => rfl
    | some b =>
      show Except.ok (make (f a) (f b)) = .ok ((make a b).relocate move)
      rw [hmake]

/-- The usual operators do not look at the positions of columns. -/
theorem meaning_relocate {token : String} {meaning : Meaning Id Column Condition}
    (hget : Table.vocabulary.get? token = some meaning) (l r : TableOperand) :
    (meaning (l.relocate move) (r.relocate move)).run.run =
      ((meaning l r).run.run).map (Condition.relocate move) := by
  have hequal : ∀ a b, Condition.equal (a.relocate move) (b.relocate move) =
      (Condition.equal a b).relocate move := fun _ _ => rfl
  have hand : ∀ a b, Condition.and (a.relocate move) (b.relocate move) =
      (Condition.and a b).relocate move := fun _ _ => rfl
  have hor : ∀ a b, Condition.or (a.relocate move) (b.relocate move) =
      (Condition.or a b).relocate move := fun _ _ => rfl
  rw [get?_vocabulary] at hget
  split at hget
  · cases hget
    exact combine_relocate (Bound.term?_relocate move) hequal l r
  · split at hget
    · cases hget
      exact combine_relocate (Bound.condition?_relocate move) hand l r
    · split at hget
      · cases hget
        exact combine_relocate (Bound.condition?_relocate move) hor l r
      · cases hget

end Table

end Moving

/-! ## Tables with the same columns in any order -/

namespace Table

variable {t u : Table}

/-- The column of the table that has the name. -/
def place (t : Table) (c : Column) : Column :=
  match t.indexOf? c.name with
  | some index => ⟨index, c.name⟩
  | none => c

/-- On tables with the same names a tree is bound to the same, or refused for the same cause. -/
theorem evaluate_place (h : ∀ name, name ∈ t.columns ↔ name ∈ u.columns) (tree : Tree ρ) :
    u.evaluate Table.vocabulary tree =
      (t.evaluate Table.vocabulary tree).map (Bound.relocate u.place) := by
  induction tree with
  | hole => rfl
  | leaf x =>
    cases x with
    | literal text value => rfl
    | field reference =>
      have hsome : (t.indexOf? reference.name).isSome = (u.indexOf? reference.name).isSome := by
        rw [Bool.eq_iff_iff, isSome_indexOf?_iff, isSome_indexOf?_iff, h]
      rw [evaluate_field, evaluate_field]
      cases ht : t.indexOf? reference.name with
      | none =>
        cases hu : u.indexOf? reference.name with
        | none => rfl
        | some index => simp [ht, hu] at hsome
      | some index =>
        cases hu : u.indexOf? reference.name with
        | none => simp [ht, hu] at hsome
        | some index' => simp [Except.map, Bound.relocate, place, hu]
  | node op left right ihleft ihright =>
    rw [evaluate_node, evaluate_node, ihleft, ihright]
    cases hcheck : Tree.check Table.vocabulary op left right with
    | error e => rfl
    | ok meaning =>
      obtain ⟨-, hget, -, -⟩ := Tree.check_eq_ok_iff.1 hcheck
      -- the sides first, and then what the meaning makes of them
      cases t.evaluate Table.vocabulary left with
      | error e => rfl
      | ok l =>
        cases t.evaluate Table.vocabulary right with
        | error e => rfl
        | ok r =>
          show ((meaning (l.relocate u.place) (r.relocate u.place)).run.run).map Bound.predicate =
            (((meaning l r).run.run).map Bound.predicate).map (Bound.relocate u.place)
          rw [meaning_relocate hget]
          cases (meaning l r).run.run with
          | error e => rfl
          | ok c => rfl

theorem answer_relocate (move : Column → Column) (b : TableOperand) :
    answer (b.relocate move) = (answer b).map (Condition.relocate move) := by
  cases b with
  | literal value => rfl
  | location column => rfl
  | predicate condition => rfl

theorem bind_place (h : ∀ name, name ∈ t.columns ↔ name ∈ u.columns) (tree : Tree ρ) :
    u.bind Table.vocabulary tree =
      (t.bind Table.vocabulary tree).map (Condition.relocate u.place) := by
  rw [bind_eq_answer, bind_eq_answer, evaluate_place h]
  cases t.evaluate Table.vocabulary tree with
  | error e => rfl
  | ok b =>
    show ((answer (b.relocate u.place)).mapError Halt.refused) =
      ((answer b).mapError Halt.refused).map _
    rw [answer_relocate]
    cases answer b with
    | error e => rfl
    | ok c => rfl

end Table

end FilterLang
