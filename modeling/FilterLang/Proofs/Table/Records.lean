import FilterLang.Proofs.Except
import FilterLang.Table.Dataset

/-!
# The table of some records

The entries of a record are put into its row one after the other.  As every key is a column and every column
is there once, no entry is passed over and none is lost under another (`Dataset.row_eq_ok_iff`).  So a dataset
is made into a table exactly if every value in its records can be a cell, and the row of a record then has
under each name what the record has there, and an empty cell where it has nothing (`Dataset.table_eq_ok_iff`).
Such a row is written out as the same object whatever the order of the columns is (`Dataset.rowJson_rowIn`).
-/

namespace FilterLang

namespace Dataset

/-! ## One record -/

/-- Whether every value of the record can be a cell. -/
def Loadable (r : Record) : Prop :=
  ∀ e ∈ r.entries, ∃ v, Value.ofJson e.2 = .ok v

/-- The value as a cell; one that cannot be a cell leaves it empty. -/
def cellOf (value : Json) : Value :=
  match Value.ofJson value with
  | .ok v => v
  | .error _ => .null

/-- The cell of the record under a name. -/
def cellIn (r : Record) (name : String) : Value :=
  ((r.get? name).map cellOf).getD .null

/-- The cells of the record under the names of the columns. -/
def rowIn (columns : List String) (r : Record) : List Value :=
  columns.map (cellIn r)

theorem cell_eq_ok_iff {key : String} {value : Json} {v : Value} :
    cell key value = .ok v ↔ Value.ofJson value = .ok v := by
  unfold cell
  cases Value.ofJson value with
  | ok v' => simp
  | error cause => simp

/-! ## Entering values -/

section Entering

variable {columns : List String} {r : Record}

/-- Setting the cell of one column changes the value of its name, as no other column has the name. -/
theorem set_map_of_idxOf? (hnodup : columns.Nodup) {name : String} {index : Nat}
    (h : columns.idxOf? name = some index) (f : String → Value) (v : Value) :
    (columns.map f).set index v = columns.map fun n => if n = name then v else f n := by
  obtain ⟨hlt, hname, -⟩ := List.idxOf?_eq_some_iff.1 h
  refine List.ext_getElem (by simp) fun i hi _ => ?_
  have hi' : i < columns.length := by simpa using hi
  have hiff : index = i ↔ columns[i] = name := by
    rw [← hname, eq_comm]
    exact (List.getElem_inj hnodup).symm
  simp only [List.getElem_set, List.getElem_map, hiff]

/-- An entry is refused for the cause for which its value is, if its key is a column. -/
theorem cause?_enter {e : String × Json} (hkey : e.1 ∈ columns) (row : List Value) :
    cause? (enter columns row e) = cause? (cell e.1 e.2) := by
  obtain ⟨index, hindex⟩ := Option.isSome_iff_exists.1 (List.isSome_idxOf?.2 hkey)
  rw [enter, hindex]
  cases cell e.1 e.2 with
  | ok v => rfl
  | error cause => rfl

/-- Of its entries the first one that is refused decides about a record. -/
theorem cause?_row (hkeys : ∀ key ∈ r.keys, key ∈ columns) :
    cause? (row columns r) = r.entries.findSome? fun e => cause? (cell e.1 e.2) := by
  refine cause?_foldlM fun row e he => ?_
  exact cause?_enter (hkeys _ (List.mem_map_of_mem he)) row

theorem loadable_of_row {found : List Value} (hkeys : ∀ key ∈ r.keys, key ∈ columns)
    (h : row columns r = .ok found) : Loadable r := by
  have hnone : cause? (row columns r) = none := cause?_eq_none_iff.2 ⟨found, h⟩
  rw [cause?_row hkeys, List.findSome?_eq_none_iff] at hnone
  intro e he
  obtain ⟨v, hv⟩ := cause?_eq_none_iff.1 (hnone e he)
  exact ⟨v, cell_eq_ok_iff.1 hv⟩

/-- Entries with different keys are all found in the row again, beside what was there under other names. -/
theorem foldlM_enter (hnodup : columns.Nodup) {entries : List (String × Json)}
    (hsorted : entries.Pairwise fun a b => a.1 < b.1)
    (hentries : ∀ e ∈ entries, e.1 ∈ columns ∧ ∃ v, Value.ofJson e.2 = .ok v) (f : String → Value) :
    entries.foldlM (enter columns) (columns.map f) =
      .ok (columns.map fun name => ((Keyed.findValue? name entries).map cellOf).getD (f name)) := by
  induction entries generalizing f with
  | nil => rfl
  | cons e rest ih =>
    obtain ⟨⟨hkey, v, hv⟩, hrest⟩ := List.forall_mem_cons.1 hentries
    obtain ⟨hfirst, hsorted'⟩ := List.pairwise_cons.1 hsorted
    obtain ⟨index, hindex⟩ := Option.isSome_iff_exists.1 (List.isSome_idxOf?.2 hkey)
    have hcell : cell e.1 e.2 = .ok (cellOf e.2) := by
      rw [cell_eq_ok_iff, cellOf, hv]
    have henter : enter columns (columns.map f) e =
        .ok (columns.map fun name => if name = e.1 then cellOf e.2 else f name) := by
      rw [← set_map_of_idxOf? hnodup hindex, enter, hindex, hcell]
      rfl
    rw [List.foldlM_cons, henter]
    show rest.foldlM (enter columns) _ = _
    rw [ih hsorted' hrest]
    refine congrArg Except.ok (List.map_congr_left fun name _ => ?_)
    -- later entries have greater keys, so none of them takes the place of this one
    have hmissing : Keyed.findValue? e.1 rest = none := by
      refine Option.eq_none_iff_forall_ne_some.2 fun w hw => ?_
      exact String.lt_irrefl e.1 (hfirst (e.1, w) ((Keyed.findValue?_eq_some_iff hsorted').1 hw))
    by_cases hname : e.1 = name
    · subst hname
      simp [Keyed.findValue?, hmissing]
    · simp [Keyed.findValue?, hname, Ne.symm hname]

/-- When all keys are columns and each column is there once, no entry is lost and none hides another. -/
theorem row_eq_ok_iff (hnodup : columns.Nodup) (hkeys : ∀ key ∈ r.keys, key ∈ columns)
    {found : List Value} : row columns r = .ok found ↔ Loadable r ∧ found = rowIn columns r := by
  have hrow : Loadable r → row columns r = .ok (rowIn columns r) := by
    intro hload
    have hentries : ∀ e ∈ r.entries, e.1 ∈ columns ∧ ∃ v, Value.ofJson e.2 = .ok v := by
      intro e he
      exact ⟨hkeys _ (List.mem_map_of_mem he), hload e he⟩
    rw [row, ← List.map_const', foldlM_enter hnodup r.sorted hentries]
    rfl
  constructor
  · intro h
    have hload : Loadable r := loadable_of_row hkeys h
    rw [hrow hload] at h
    cases h
    exact ⟨hload, rfl⟩
  · rintro ⟨hload, rfl⟩
    exact hrow hload

end Entering

/-! ## All records -/

/-- The table with one row for each record, in their order. -/
def tableOf (records : List Record) : Table where
  columns := columns records
  rows := records.map (rowIn (columns records))

theorem mem_columns_iff {records : List Record} {name : String} :
    name ∈ columns records ↔ ∃ r ∈ records, name ∈ r.keys := by
  rw [columns, mem_firstSeen, List.mem_flatMap]

/-- The records are made into their table exactly if each of them can be loaded. -/
theorem table_eq_ok_iff {records : List Record} {t : Table} :
    table records = .ok t ↔ (∀ r ∈ records, Loadable r) ∧ t = tableOf records := by
  unfold table
  rw [except_bind_eq_ok_iff]
  have hrow : ∀ r ∈ records, ∀ found,
      row (columns records) r = .ok found ↔ Loadable r ∧ found = rowIn (columns records) r := by
    intro r hr found
    exact row_eq_ok_iff (nodup_firstSeen _) fun key hkey => mem_columns_iff.2 ⟨r, hr, hkey⟩
  constructor
  · rintro ⟨rows, hrows, hpure⟩
    have hload : ∀ r ∈ records, Loadable r := by
      intro r hr
      obtain ⟨found, hfound⟩ := exists_of_mapM_eq_ok hrows r hr
      exact ((hrow r hr found).1 hfound).1
    rw [mapM_eq_ok_map fun r hr => (hrow r hr _).2 ⟨hload r hr, rfl⟩] at hrows
    cases hrows
    cases hpure
    exact ⟨hload, rfl⟩
  · rintro ⟨hload, rfl⟩
    exact ⟨_, mapM_eq_ok_map fun r hr => (hrow r hr _).2 ⟨hload r hr, rfl⟩, rfl⟩

theorem ofText_eq_ok_iff {text : String} {t : Table} :
    ofText text = .ok t ↔ ∃ records, records? text = some records ∧ table records = .ok t := by
  unfold ofText
  cases records? text with
  | none => simp
  | some records => simp

/-! ## Cells of a row -/

/-- At the position of a column stands the cell under its name. -/
theorem getElem?_rowIn {names : List String} {r : Record} {name : String} {index : Nat}
    (h : names[index]? = some name) : (rowIn names r)[index]? = some (cellIn r name) := by
  rw [rowIn, List.getElem?_map, h]
  rfl

theorem zip_rowIn (names : List String) (r : Record) :
    names.zip (rowIn names r) = names.map fun name => (name, cellIn r name) := by
  induction names with
  | nil => rfl
  | cons name rest ih =>
    rw [rowIn] at ih ⊢
    rw [List.map_cons, List.zip_cons_cons, ih]
    rfl

/-- Shown, the row of a record has an entry for each column. -/
theorem rowJson_rowIn_eq (t : Table) (r : Record) :
    t.rowJson (rowIn t.columns r) =
      .object (Keyed.ofList (t.columns.map fun name => (name, (cellIn r name).toJson))).entries := by
  unfold Table.rowJson
  rw [zip_rowIn, List.map_map]
  rfl

/-- The object of a row depends on the names that there are, not on their order. -/
theorem rowJson_rowIn {t u : Table} (h : ∀ name, name ∈ t.columns ↔ name ∈ u.columns) (r : Record) :
    u.rowJson (rowIn u.columns r) = t.rowJson (rowIn t.columns r) := by
  have hsame : Keyed.ofList (u.columns.map fun name => (name, (cellIn r name).toJson)) =
      Keyed.ofList (t.columns.map fun name => (name, (cellIn r name).toJson)) := by
    refine Keyed.ext_get? fun key => ?_
    rw [Keyed.get?_ofList_map, Keyed.get?_ofList_map]
    simp only [h]
  rw [rowJson_rowIn_eq, rowJson_rowIn_eq, hsame]

end Dataset

end FilterLang
