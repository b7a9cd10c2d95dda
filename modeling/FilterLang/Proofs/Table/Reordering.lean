import FilterLang.Proofs.Table.Columns
import FilterLang.Proofs.Table.Records

/-!
# The order of records

Columns stand in the order in which their names are first met, so another order of the records can move them,
and with them the positions in every condition and the cells of every row.  Nothing of this can be seen from
outside: a tree is refused for the same cause or selects the same records, in their new order, and they are
written out as the same objects (`Dataset.select_perm`).

What carries this over from one table to the other are the names: both tables have the same ones, a condition
finds each of them at its new position, and there a row has the same cell as before.
-/

namespace FilterLang

namespace Dataset

variable {ρ : Type}

theorem mem_columns_perm {records records' : List Record} (h : records'.Perm records) (name : String) :
    name ∈ (tableOf records).columns ↔ name ∈ (tableOf records').columns := by
  simp only [tableOf, mem_columns_iff, h.mem_iff]

/-- A condition that is bound where the columns stand in another order holds on the same records. -/
theorem holds_rowIn_place {t u : Table} (hnames : ∀ name, name ∈ t.columns ↔ name ∈ u.columns)
    {tree : Tree ρ} {c : Condition} (h : t.bind Table.vocabulary tree = .ok c) (r : Record) :
    (c.relocate u.place).holds (rowIn u.columns r) = c.holds (rowIn t.columns r) := by
  refine Condition.holds_relocate fun col hcol => ?_
  have hold : t.columns[col.index]? = some col.name :=
    Table.getElem?_of_indexOf? (Table.indexOf?_of_bind h col hcol)
  have hmem : col.name ∈ u.columns := (hnames _).1 (List.mem_of_getElem? hold)
  obtain ⟨index, hindex⟩ := Option.isSome_iff_exists.1 (Table.isSome_indexOf?_iff.2 hmem)
  have hplace : u.place col = ⟨index, col.name⟩ := by rw [Table.place, hindex]
  rw [hplace, getElem?_rowIn hold, getElem?_rowIn (Table.getElem?_of_indexOf? hindex)]

/-- The rows selected are those of the records on whose rows the condition holds. -/
theorem select_tableOf (records : List Record) (c : Condition) :
    (tableOf records).select c =
      (records.filter fun r => c.holds (rowIn (tableOf records).columns r)).map
        (rowIn (tableOf records).columns) := by
  rw [Table.select, tableOf, List.filter_map]
  rfl

/-- Records that make a table make one in any order.  The tables have a row for each record, and a record is
written out as the same object from both.  Any tree is refused for the same cause by both tables, or both
bind it; then the conditions hold on the rows of the same records, and each table selects the rows of
these in the order of its own records. -/
theorem select_perm {records records' : List Record} (hperm : records'.Perm records) {t : Table}
    (hload : table records = .ok t) :
    ∃ t', table records' = .ok t' ∧
      t.rows = records.map (rowIn t.columns) ∧ t'.rows = records'.map (rowIn t'.columns) ∧
      (∀ r, t'.rowJson (rowIn t'.columns r) = t.rowJson (rowIn t.columns r)) ∧
      ∀ tree : Tree ρ,
        (∃ e, t.bind Table.vocabulary tree = .error e ∧ t'.bind Table.vocabulary tree = .error e) ∨
        ∃ c c', t.bind Table.vocabulary tree = .ok c ∧ t'.bind Table.vocabulary tree = .ok c' ∧
          (∀ r, c'.holds (rowIn t'.columns r) = c.holds (rowIn t.columns r)) ∧
          t.select c =
            (records.filter fun r => c.holds (rowIn t.columns r)).map (rowIn t.columns) ∧
          t'.select c' =
            (records'.filter fun r => c.holds (rowIn t.columns r)).map (rowIn t'.columns) := by
  obtain ⟨hloadable, rfl⟩ := table_eq_ok_iff.1 hload
  have hloadable' : ∀ r ∈ records', Loadable r := fun r hr => hloadable r (hperm.mem_iff.1 hr)
  have hnames := mem_columns_perm hperm
  refine ⟨tableOf records', table_eq_ok_iff.2 ⟨hloadable', rfl⟩, rfl, rfl, rowJson_rowIn hnames, ?_⟩
  intro tree
  have hplace := Table.bind_place hnames tree
  cases hbind : (tableOf records).bind Table.vocabulary tree with
  | error e =>
    rw [hbind] at hplace
    exact .inl ⟨e, rfl, hplace⟩
  | ok c =>
    rw [hbind] at hplace
    have hholds := holds_rowIn_place hnames hbind
    refine .inr ⟨c, _, rfl, hplace, hholds, select_tableOf records c, ?_⟩
    rw [select_tableOf]
    simp only [hholds]

/-- Read the other way round, the second record moves the columns `b` and `c`; the condition follows. -/
theorem select_perm_swapped :
    let first : Record := Keyed.ofList [("a", .boolean true), ("b", .number (.integer 1))]
    let second : Record := Keyed.ofList [("a", .boolean false), ("c", .string "x")]
    let t : Table := {
      columns := ["a", "b", "c"]
      rows := [[.boolean true, .integer 1, .null], [.boolean false, .null, .string "x"]] }
    let t' : Table := {
      columns := ["a", "c", "b"]
      rows := [[.boolean false, .string "x", .null], [.boolean true, .null, .integer 1]] }
    let tree : Tree Empty :=
      .node ⟨"=", 20, .binary⟩ (.leaf (.field "b")) (.leaf (.literal "1" (.integer 1)))
    List.Perm [second, first] [first, second] ∧ table [first, second] = .ok t ∧
      table [second, first] = .ok t' ∧
      ∃ c c', t.bind Table.vocabulary tree = .ok c ∧ t'.bind Table.vocabulary tree = .ok c' ∧ c ≠ c' ∧
        t.select c = [[.boolean true, .integer 1, .null]] ∧
        t'.select c' = [[.boolean true, .null, .integer 1]] ∧
        t'.rowJson [.boolean true, .null, .integer 1] = t.rowJson [.boolean true, .integer 1, .null] := by
  intro first second t t' tree
  have hperm : List.Perm [second, first] [first, second] := .swap _ _ _
  have hload : table [first, second] = .ok t := by rfl
  have hload' : table [second, first] = .ok t' := by rfl
  have hc : t.bind Table.vocabulary tree = .ok (.equal (.column ⟨1, "b"⟩) (.constant (.integer 1))) := by rfl
  have hc' : t'.bind Table.vocabulary tree = .ok (.equal (.column ⟨2, "b"⟩) (.constant (.integer 1))) := by
    rfl
  obtain ⟨u, hu, -, -, hjson, hbind⟩ := select_perm (ρ := Empty) hperm hload
  rw [hload'] at hu
  cases hu
  refine ⟨hperm, hload, hload', _, _, hc, hc', by decide, ?_⟩
  rcases hbind tree with ⟨e, he, -⟩ | ⟨c, c', h, h', -, hselect, hselect'⟩
  · rw [hc] at he
    cases he
  · rw [hc] at h
    cases h
    rw [hc'] at h'
    cases h'
    exact ⟨hselect.trans (by rfl), hselect'.trans (by rfl), hjson first⟩

end Dataset

end FilterLang
