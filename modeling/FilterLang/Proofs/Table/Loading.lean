import FilterLang.Proofs.Table.Records
import Mathlib.Data.List.Forall2
import Mathlib.Data.List.Induction

/-!
# What loading keeps

Records are made into a table unless some value in them cannot be a cell; then the first such value is
reported, in the order of the records and of the keys in each.  The table has a column for every key, in the
order in which the keys are first met, and a row for every record with its values under their keys.  Where no
value changes its form on the way into a cell, a row is written out as its record again, with `null` in the
columns of other records (`Dataset.table_faithful`).
-/

namespace FilterLang

namespace Dataset

/-! ## The first value refused -/

/-- All entries, one record after the other. -/
def entries (records : List Record) : List (String × Json) :=
  records.flatMap Keyed.entries

/-- The first value that cannot be a cell stands under the key, and this is the cause. -/
def FirstRefused (records : List Record) (key : String) (cause : Value.Refusal) : Prop :=
  ∃ front value back, entries records = front ++ (key, value) :: back ∧
    (∀ e ∈ front, ∃ v, Value.ofJson e.2 = .ok v) ∧ Value.ofJson value = .error cause

theorem cell_eq_error_iff {key : String} {value : Json} {e : DatasetError} :
    cell key value = .error e ↔ ∃ cause, Value.ofJson value = .error cause ∧ e = .invalidValue key cause := by
  unfold cell
  cases Value.ofJson value with
  | ok v => simp
  | error cause => simp [eq_comm]

theorem findSome?_flatMap {α β γ : Type} (f : α → List β) (g : β → Option γ) (as : List α) :
    (as.flatMap f).findSome? g = as.findSome? fun a => (f a).findSome? g := by
  induction as with
  | nil => rfl
  | cons a as ih =>
    rw [List.flatMap_cons, List.findSome?_append, List.findSome?_cons, ih]
    cases (f a).findSome? g with
    | none => rfl
    | some c => rfl

/-- The records are searched as one list of entries. -/
theorem cause?_table (records : List Record) :
    cause? (table records) = (entries records).findSome? fun e => cause? (cell e.1 e.2) := by
  have hrows : cause? (table records) = cause? (records.mapM (row (columns records))) := by
    unfold table
    cases records.mapM (row (columns records)) with
    | ok rows => rfl
    | error e => rfl
  have hrow : ∀ r ∈ records, cause? (row (columns records) r) =
      r.entries.findSome? fun e => cause? (cell e.1 e.2) := by
    intro r hr
    exact cause?_row fun key hkey => mem_columns_iff.2 ⟨r, hr, hkey⟩
  rw [hrows, cause?_mapM hrow, entries, findSome?_flatMap]

theorem table_eq_error_iff {records : List Record} {e : DatasetError} :
    table records = .error e ↔ ∃ key cause, FirstRefused records key cause ∧ e = .invalidValue key cause := by
  have haccepted : ∀ x : String × Json, cause? (cell x.1 x.2) = none ↔ ∃ v, Value.ofJson x.2 = .ok v := by
    intro x
    simp only [cause?_eq_none_iff, cell_eq_ok_iff]
  rw [← cause?_eq_some_iff, cause?_table, List.findSome?_eq_some_iff]
  simp only [haccepted, cause?_eq_some_iff, cell_eq_error_iff]
  constructor
  · rintro ⟨front, ⟨key, value⟩, back, hcut, ⟨cause, hcause, he⟩, hfront⟩
    exact ⟨key, cause, ⟨front, value, back, hcut, hfront, hcause⟩, he⟩
  · rintro ⟨key, cause, ⟨front, value, back, hcut, hfront, hcause⟩, he⟩
    exact ⟨front, (key, value), back, hcut, ⟨cause, hcause, he⟩, hfront⟩

theorem exists_table_iff {records : List Record} :
    (∃ t, table records = .ok t) ↔ ∀ e ∈ entries records, ∃ v, Value.ofJson e.2 = .ok v := by
  simp only [table_eq_ok_iff, entries, List.forall_mem_flatMap, Loadable]
  constructor
  · rintro ⟨t, hload, -⟩
    exact hload
  · intro hload
    exact ⟨_, hload, rfl⟩

/-! ## Columns -/

/-- All keys in the order in which they are met. -/
def allKeys (records : List Record) : List String :=
  records.flatMap Keyed.keys

theorem firstSeen_concat (names : List String) (name : String) :
    firstSeen (names ++ [name]) = appendNew (firstSeen names) name := by
  simp [firstSeen, List.foldl_append]

/-- What is seen first comes first. -/
theorem pairwise_firstSeen (names : List String) :
    (firstSeen names).Pairwise fun a b => names.idxOf a < names.idxOf b := by
  induction names using List.reverseRecOn with
  | nil => exact List.Pairwise.nil
  | append_singleton names name ih =>
    -- the places of earlier names stay as they are
    have hplace : ∀ {a}, a ∈ firstSeen names → (names ++ [name]).idxOf a = names.idxOf a := by
      intro a ha
      exact List.idxOf_append_of_mem (mem_firstSeen.1 ha)
    have hold : (firstSeen names).Pairwise fun a b =>
        (names ++ [name]).idxOf a < (names ++ [name]).idxOf b := by
      refine ih.imp_of_mem ?_
      intro a b ha hb hlt
      rw [hplace ha, hplace hb]
      exact hlt
    rw [firstSeen_concat, appendNew]
    split
    · exact hold
    · rename_i hnew
      refine List.pairwise_append.2 ⟨hold, List.pairwise_singleton _ _, ?_⟩
      intro a ha b hb
      rw [List.mem_singleton.1 hb, hplace ha]
      have hlast : (names ++ [name]).idxOf name = names.length := by
        rw [List.idxOf_append_of_notMem fun h => hnew (mem_firstSeen.2 h)]
        simp
      rw [hlast]
      exact List.idxOf_lt_length_iff.2 (mem_firstSeen.1 ha)

/-! ## Rows -/

/-- Whether the row holds what the record does: each value as a cell in the column of its key, and nothing in
the columns of other names. -/
structure RowFor (t : Table) (r : Record) (row : List Value) : Prop where
  width : row.length = t.columns.length
  found : ∀ (index : Nat) key value, t.columns[index]? = some key → r.get? key = some value →
    ∃ v, Value.ofJson value = .ok v ∧ row[index]? = some v
  missing : ∀ (index : Nat) key, t.columns[index]? = some key → r.get? key = none → row[index]? = some .null

theorem mem_keys_of_get? {r : Record} {key : String} {value : Json} (h : r.get? key = some value) :
    key ∈ r.keys :=
  List.mem_map.2 ⟨(key, value), Keyed.get?_eq_some_iff.1 h, rfl⟩

theorem rowFor_rowIn {t : Table} {r : Record} (hload : Loadable r) : RowFor t r (rowIn t.columns r) where
  width := List.length_map _
  found index key value hcolumn hvalue := by
    obtain ⟨v, hv⟩ := hload _ (Keyed.get?_eq_some_iff.1 hvalue)
    refine ⟨v, hv, ?_⟩
    rw [getElem?_rowIn hcolumn, cellIn, hvalue, Option.map_some, Option.getD_some, cellOf, hv]
  missing index key hcolumn hnone := by
    rw [getElem?_rowIn hcolumn, cellIn, hnone]
    rfl

/-! ## Written out again -/

/-- Whether the value is kept as it is in a cell: a decimal can lose digits and is not. -/
def Kept : Json → Prop
  | .null => True
  | .boolean _ => True
  | .number (.integer value) => -Nat.pow 2 63 ≤ value ∧ value < Nat.pow 2 63
  | .number (.double _ _) => False
  | .string _ => True
  | .list _ => False
  | .object _ => False

theorem toJson_cellOf {value : Json} (h : Kept value) : (cellOf value).toJson = value := by
  cases value with
  | null => rfl
  | boolean value => rfl
  | string value => rfl
  | list items => cases h
  | object entries => cases h
  | number number =>
    cases number with
    | double negative size => cases h
    | integer value =>
      have hrange : -Nat.pow 2 63 ≤ value ∧ value < Nat.pow 2 63 := h
      have hcell : cellOf (.number (.integer value)) = .integer (.ofInt value) := by
        simp only [cellOf, Value.ofJson, Value.ofNumber, if_pos hrange]
      obtain ⟨hlow, hhigh⟩ : -9223372036854775808 ≤ value ∧ value < 9223372036854775808 := hrange
      rw [hcell, Value.toJson, Int64.toInt_ofInt_of_le hlow hhigh]

/-- The record with `null` under each of the names that it lacks. -/
def completed (names : List String) (r : Record) : Record :=
  names.foldl (fun m name => if m.contains name then m else m.insert name .null) r

theorem get?_completed (names : List String) (r : Record) (key : String) :
    (completed names r).get? key = (r.get? key).or (if key ∈ names then some .null else none) := by
  induction names generalizing r with
  | nil => simp [completed]
  | cons name rest ih =>
    show (completed rest (if r.contains name then r else r.insert name .null)).get? key = _
    rw [ih]
    split
    · rename_i hthere
      by_cases hname : key = name
      · obtain ⟨value, hvalue⟩ := Option.isSome_iff_exists.1 hthere
        simp [hname, hvalue]
      · simp [hname]
    · rename_i hnone
      by_cases hname : key = name
      · have hmissing : r.get? name = none := by simpa [Keyed.contains] using hnone
        simp [hname, Keyed.get?_insert, hmissing]
      · simp [hname, Keyed.get?_insert, Ne.symm hname]

theorem rowJson_eq_completed {t : Table} {r : Record} (hkept : ∀ e ∈ r.entries, Kept e.2)
    (hkeys : ∀ key ∈ r.keys, key ∈ t.columns) :
    t.rowJson (rowIn t.columns r) = .object (completed t.columns r).entries := by
  have hsame : Keyed.ofList (t.columns.map fun name => (name, (cellIn r name).toJson)) =
      completed t.columns r := by
    refine Keyed.ext_get? fun key => ?_
    rw [Keyed.get?_ofList_map, get?_completed, cellIn]
    cases hvalue : r.get? key with
    | none => rfl
    | some value =>
      have hmem : key ∈ t.columns := hkeys _ (mem_keys_of_get? hvalue)
      have hform := toJson_cellOf (hkept _ (Keyed.get?_eq_some_iff.1 hvalue))
      simp [hmem, hform]
  rw [rowJson_rowIn_eq, hsame]

/-- Records are loaded exactly if each of their values can be a cell; otherwise the first that cannot is
reported.  When they are loaded, the columns are their keys, each once and in the order in which they are
first met, and the rows are those of the records, in their order.  A row is written out as its record,
with `null` under the keys of others, if all values of the record are kept as they are. -/
theorem table_faithful (records : List Record) :
    (∀ text, records? text = some records → ofText text = table records) ∧
    ((∃ t, table records = .ok t) ↔ ∀ e ∈ entries records, ∃ v, Value.ofJson e.2 = .ok v) ∧
    (∀ e, table records = .error e ↔
      ∃ key cause, FirstRefused records key cause ∧ e = .invalidValue key cause) ∧
    ∀ t, table records = .ok t →
      t.columns.Nodup ∧ (∀ name, name ∈ t.columns ↔ ∃ r ∈ records, name ∈ r.keys) ∧
      (t.columns.Pairwise fun a b => (allKeys records).idxOf a < (allKeys records).idxOf b) ∧
      List.Forall₂ (RowFor t) records t.rows ∧
      List.Forall₂ (fun r row => (∀ e ∈ r.entries, Kept e.2) →
        t.rowJson row = .object (completed t.columns r).entries) records t.rows := by
  refine ⟨?_, exists_table_iff, fun e => table_eq_error_iff, ?_⟩
  · intro text htext
    rw [ofText, htext]
  · intro t hload
    obtain ⟨hloadable, rfl⟩ := table_eq_ok_iff.1 hload
    have hkeys : ∀ r ∈ records, ∀ key ∈ r.keys, key ∈ (tableOf records).columns := by
      intro r hr key hkey
      exact mem_columns_iff.2 ⟨r, hr, hkey⟩
    refine ⟨nodup_firstSeen _, fun name => mem_columns_iff, pairwise_firstSeen _, ?_, ?_⟩
    · refine List.forall₂_map_right_iff.2 (List.forall₂_same.2 ?_)
      intro r hr
      exact rowFor_rowIn (hloadable r hr)
    · refine List.forall₂_map_right_iff.2 (List.forall₂_same.2 ?_)
      intro r hr hkept
      exact rowJson_eq_completed hkept (hkeys r hr)

/-- Each row has `null` under the key that only the other record has. -/
theorem table_faithful_missingKeys :
    let first : Record := Keyed.ofList [("title", .string "A"), ("price", .number (.integer 10))]
    let second : Record := Keyed.ofList [("title", .string "B"), ("active", .boolean true)]
    ∃ t, table [first, second] = .ok t ∧ t.columns = ["price", "title", "active"] ∧
      t.rows.map t.rowJson =
        [.object [("active", .null), ("price", .number (.integer 10)), ("title", .string "A")],
          .object [("active", .boolean true), ("price", .null), ("title", .string "B")]] := by
  intro first second
  let t : Table :=
    { columns := ["price", "title", "active"]
      rows := [[.integer 10, .string "A", .null], [.null, .string "B", .boolean true]] }
  have ht : table [first, second] = .ok t := by rfl
  have hfirst : ∀ e ∈ first.entries, Kept e.2 := by
    have hentries : first.entries = [("price", .number (.integer 10)), ("title", .string "A")] := by rfl
    simp [hentries, Kept]
  have hsecond : ∀ e ∈ second.entries, Kept e.2 := by
    have hentries : second.entries = [("active", .boolean true), ("title", .string "B")] := by rfl
    simp [hentries, Kept]
  obtain ⟨-, -, -, -, hwritten⟩ := (table_faithful [first, second]).2.2.2 t ht
  obtain _ | ⟨hA, _ | ⟨hB, -⟩⟩ := hwritten
  refine ⟨t, ht, rfl, ?_⟩
  show [t.rowJson _, t.rowJson _] = _
  rw [hA hfirst, hB hsecond]
  rfl

end Dataset

end FilterLang
