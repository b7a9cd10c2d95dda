import FilterLang.Proofs.Table.Columns
import FilterLang.Proofs.Table.Records

/-!
# Tables that grow

A table is made empty or from a dataset, and from then on rows are offered to it: one that fits is appended,
and one that does not is refused and changes nothing.  So the columns stay as they are and every row has a
cell for each of them (`Table.rectangular_offerAll`).

Main statement: a condition that is bound at one time stays what the tree is bound to, finds a cell in every
row at every later time, and selects what it selected before and those of the new rows on which it holds
(`Table.bind_stable`).
-/

namespace FilterLang

namespace Table

variable {t u : Table} {row : List Value}

/-! ## Rows with a cell for each column -/

/-- Whether every row has exactly one cell for each column. -/
def Rectangular (t : Table) : Prop :=
  ∀ row ∈ t.rows, row.length = t.columns.length

/-- How a table comes to be. -/
inductive Created : Table → Prop where
  /-- Without rows; the names may be any -/
  | empty (columns : List String) : Created { columns }
  /-- From a dataset -/
  | loaded {text : String} {t : Table} (h : Dataset.ofText text = .ok t) : Created t

theorem rectangular_tableOf (records : List Record) : (Dataset.tableOf records).Rectangular := by
  intro row hrow
  obtain ⟨r, -, rfl⟩ := List.mem_map.1 hrow
  exact List.length_map _

theorem rectangular_of_created (h : t.Created) : t.Rectangular := by
  cases h with
  | empty columns =>
    intro row hrow
    cases hrow
  | loaded hload =>
    obtain ⟨records, -, htable⟩ := Dataset.ofText_eq_ok_iff.1 hload
    obtain ⟨-, rfl⟩ := Dataset.table_eq_ok_iff.1 htable
    exact rectangular_tableOf records

/-! ## One row -/

/-- Whether the row has as many cells as there are columns. -/
def fits (t : Table) (row : List Value) : Bool :=
  row.length == t.columns.length

theorem insert_eq_error_iff {e : WidthMismatch} :
    t.insert row = .error e ↔
      row.length ≠ t.columns.length ∧ e = ⟨row.length, t.columns.length⟩ := by
  unfold insert
  split <;> simp_all [eq_comm]

/-- The table after the row has been offered: a row that is refused leaves it as it was. -/
def offer (t : Table) (row : List Value) : Table :=
  match t.insert row with
  | .ok u => u
  | .error _ => t

theorem offer_eq (t : Table) (row : List Value) :
    t.offer row = { t with rows := t.rows ++ [row].filter t.fits } := by
  rw [offer]
  cases hinsert : t.insert row with
  | ok u =>
    obtain ⟨hwidth, rfl⟩ := insert_eq_ok_iff.1 hinsert
    simp [fits, hwidth]
  | error e =>
    obtain ⟨hwidth, -⟩ := insert_eq_error_iff.1 hinsert
    simp [fits, hwidth]

@[simp] theorem columns_offer (t : Table) (row : List Value) : (t.offer row).columns = t.columns := by
  rw [offer_eq]

theorem rectangular_offer (h : t.Rectangular) (row : List Value) : (t.offer row).Rectangular := by
  intro row' hrow'
  rw [offer_eq] at hrow' ⊢
  rcases List.mem_append.1 hrow' with hold | hnew
  · exact h row' hold
  · have hfits : t.fits row' = true := (List.mem_filter.1 hnew).2
    simpa [fits] using hfits

/-! ## A run -/

/-- The table after the rows have been offered one after the other. -/
def offerAll (t : Table) (rows : List (List Value)) : Table :=
  rows.foldl offer t

@[simp] theorem columns_offerAll (t : Table) (rows : List (List Value)) :
    (t.offerAll rows).columns = t.columns := by
  induction rows generalizing t with
  | nil => rfl
  | cons row rest ih =>
    show ((t.offer row).offerAll rest).columns = t.columns
    rw [ih, columns_offer]

theorem rectangular_offerAll (h : t.Rectangular) (rows : List (List Value)) :
    (t.offerAll rows).Rectangular := by
  induction rows generalizing t with
  | nil => exact h
  | cons row rest ih => exact ih (rectangular_offer h row)

/-- The rows that fit are appended in the order in which they are offered. -/
theorem rows_offerAll (t : Table) (rows : List (List Value)) :
    (t.offerAll rows).rows = t.rows ++ rows.filter t.fits := by
  induction rows generalizing t with
  | nil => simp [offerAll]
  | cons row rest ih =>
    have hfits : (t.offer row).fits = t.fits := by
      unfold fits
      rw [columns_offer]
    show ((t.offer row).offerAll rest).rows = _
    rw [ih, hfits, offer_eq, List.append_assoc, ← List.filter_append, List.singleton_append]

/-! ## Conditions -/

/-- Where rows have a cell for each column, the position of a name is one in every row. -/
theorem exists_cell (h : t.Rectangular) {name : String} {index : Nat}
    (hindex : t.columns[index]? = some name) (hrow : row ∈ t.rows) : ∃ v, row[index]? = some v := by
  obtain ⟨hlt, -⟩ := List.getElem?_eq_some_iff.1 hindex
  rw [← h row hrow] at hlt
  exact ⟨row[index], List.getElem?_eq_getElem hlt⟩

/-- However a table was made and whatever rows have been offered to it: its columns are those that it was
made with, and every row has a cell for each.  A row is refused exactly if it has more or fewer cells, for
that cause, and leaves the table as it is then.  When a tree is bound to the table, each column of the condition is
one of the table under its own name, and it has a cell in every row, those that come later
included.  After any further rows the tree is bound to the same condition, and this selects what it
selected before, and behind that the new rows on which it holds. -/
theorem bind_stable {ρ : Type} {start : Table} (hcreated : start.Created)
    (earlier later : List (List Value)) :
    let t := start.offerAll earlier
    let u := t.offerAll later
    u.columns = t.columns ∧ t.columns = start.columns ∧ t.Rectangular ∧ u.Rectangular ∧
      (∀ row e, t.insert row = .error e ↔
        row.length ≠ t.columns.length ∧ e = ⟨row.length, t.columns.length⟩) ∧
      (∀ row, row.length ≠ t.columns.length → t.offer row = t) ∧
      ∀ (tree : Tree ρ) (c : Condition), t.bind Table.vocabulary tree = .ok c →
        (∀ col ∈ c.columns, col.index < u.columns.length ∧ u.columns[col.index]? = some col.name ∧
          ∀ row ∈ u.rows, ∃ v, row[col.index]? = some v ∧ (Term.column col).value row = v) ∧
        u.bind Table.vocabulary tree = .ok c ∧
        u.select c = t.select c ++ (later.filter t.fits).filter fun row => c.holds row := by
  intro t u
  have hcolumns : u.columns = t.columns := columns_offerAll t later
  have ht : t.Rectangular := rectangular_offerAll (rectangular_of_created hcreated) earlier
  have hu : u.Rectangular := rectangular_offerAll ht later
  refine ⟨hcolumns, columns_offerAll start earlier, ht, hu, fun row e => insert_eq_error_iff, ?_, ?_⟩
  · intro row hwidth
    rw [offer, insert_eq_error_iff.2 ⟨hwidth, rfl⟩]
  · intro tree c hbind
    refine ⟨?_, ?_, ?_⟩
    · intro col hcol
      have hname : u.columns[col.index]? = some col.name := by
        rw [hcolumns]
        exact getElem?_of_indexOf? (indexOf?_of_bind hbind col hcol)
      refine ⟨(List.getElem?_eq_some_iff.1 hname).1, hname, fun row hrow => ?_⟩
      obtain ⟨v, hv⟩ := exists_cell hu hname hrow
      refine ⟨v, hv, ?_⟩
      rw [Term.value, hv]
      rfl
    · rw [bind_eq_of_columns_eq hcolumns]
      exact hbind
    · rw [select, rows_offerAll, List.filter_append]
      rfl

/-- `{a} = 3 or {b}` on a dataset of one record: a row that is too short is refused both before and after
the tree is bound, and an empty cell is no obstacle. -/
theorem bind_stable_refusedRows :
    let start : Table := { columns := ["a", "b"], rows := [[.integer 1, .boolean true]] }
    let earlier : List (List Value) := [[.integer 2, .boolean false], [.integer 3]]
    let later : List (List Value) :=
      [[.null, .boolean true], [.boolean true], [.integer 3, .boolean false], [.integer 4, .null]]
    let t := start.offerAll earlier
    let u := t.offerAll later
    let tree : Tree Empty := .node ⟨"or", 10, .binary⟩
      (.node ⟨"=", 20, .binary⟩ (.leaf (.field "a")) (.leaf (.literal "3" (.integer 3))))
      (.leaf (.field "b"))
    let c : Condition := .or (.equal (.column ⟨0, "a"⟩) (.constant (.integer 3)))
      (.isTrue (.column ⟨1, "b"⟩))
    Dataset.ofText "[\x7b\"b\": true, \"a\": 1\x7d]" = .ok start ∧ t.bind Table.vocabulary tree = .ok c ∧
      u.bind Table.vocabulary tree = .ok c ∧ t.select c = [[.integer 1, .boolean true]] ∧
      u.select c =
        [[.integer 1, .boolean true], [.null, .boolean true], [.integer 3, .boolean false]] := by
  intro start earlier later t u tree c
  have hload : Dataset.ofText "[\x7b\"b\": true, \"a\": 1\x7d]" = .ok start := by
    have hread : (Dataset.ofText "[\x7b\"b\": true, \"a\": 1\x7d]").toOption = some start := by
      decide +kernel
    cases htext : Dataset.ofText "[\x7b\"b\": true, \"a\": 1\x7d]" with
    | ok t =>
      rw [htext] at hread
      cases hread
      rfl
    | error e =>
      rw [htext] at hread
      cases hread
  have hbind : t.bind Table.vocabulary tree = .ok c := by rfl
  have hselect : t.select c = [[.integer 1, .boolean true]] := by decide
  obtain ⟨-, -, -, -, -, -, hbound⟩ := bind_stable (ρ := Empty) (.loaded hload) earlier later
  obtain ⟨-, hlater, hgrown⟩ := hbound tree c hbind
  refine ⟨hload, hbind, hlater, hselect, hgrown.trans ?_⟩
  rw [hselect]
  decide

end Table

end FilterLang
