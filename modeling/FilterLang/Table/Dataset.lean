import FilterLang.Table.Basic

/-!
# Datasets

A dataset is a JSON list of objects, its records.  Every key that occurs in some record becomes a
column, in the order in which keys are first met (record by record, and within a record in ascending
order); a record without the key has an empty cell there.
-/

namespace FilterLang

/-- A record: values under keys in ascending order. -/
abbrev Record := Keyed Json

/-- Why a dataset cannot be made into a table. -/
inductive DatasetError where
  /-- The text is no list of objects -/
  | notRecords
  /-- A value cannot be the content of a cell -/
  | invalidValue (column : String) (cause : Value.Refusal)

/-- The messages for a dataset that is refused, each followed by its cause. -/
def DatasetError.messages : DatasetError → List String
  | notRecords => ["Dataset must be a JSON array of objects"]
  | invalidValue column cause => ["Invalid value for column " ++ column, cause.message]

/-- All messages in one line. -/
def DatasetError.message (e : DatasetError) : String :=
  ": ".intercalate e.messages

namespace Dataset

/-! ## Records -/

/-- The deepest nesting a dataset may have. -/
def maxDepth : Nat := 127

/-- The record an object stands for. -/
def record? : Json.Document → Option Record
  | .object entries => (Json.Document.entries? entries).map Keyed.ofList
  | _ => none

/-- The records in a text. -/
def records? (text : String) : Option (List Record) := do
  let document ← Json.Document.ofText? text
  if maxDepth < document.depth then none
  else
    match document with
    | .list items => items.mapM record?
    | _ => none

/-! ## From records to a table -/

/-- Appends a name that is not there yet. -/
def appendNew (seen : List String) (name : String) : List String :=
  if name ∈ seen then seen else seen ++ [name]

/-- The strings that are not among those before them. -/
def firstSeen (names : List String) : List String :=
  names.foldl appendNew []

theorem mem_foldl_appendNew {seen names : List String} {name : String} :
    name ∈ names.foldl appendNew seen ↔ name ∈ seen ∨ name ∈ names := by
  induction names generalizing seen with
  | nil => simp
  | cons head rest ih =>
    rw [List.foldl_cons, ih, appendNew]
    split
    · rename_i hmem
      constructor
      · exact fun h => h.imp_right (List.mem_cons_of_mem _)
      · rintro (h | h)
        · exact .inl h
        · rcases List.mem_cons.1 h with rfl | h
          · exact .inl hmem
          · exact .inr h
    · simp [or_assoc]

theorem nodup_foldl_appendNew {seen names : List String} (h : seen.Nodup) :
    (names.foldl appendNew seen).Nodup := by
  induction names generalizing seen with
  | nil => exact h
  | cons head rest ih =>
    refine ih ?_
    unfold appendNew
    split
    · exact h
    · rename_i hnew
      refine List.nodup_append.2 ⟨h, by simp, ?_⟩
      intro a ha b hb heq
      rw [List.mem_singleton.1 hb] at heq
      exact hnew (heq ▸ ha)

@[simp] theorem mem_firstSeen {names : List String} {name : String} :
    name ∈ firstSeen names ↔ name ∈ names := by
  simp [firstSeen, mem_foldl_appendNew]

theorem nodup_firstSeen (names : List String) : (firstSeen names).Nodup :=
  nodup_foldl_appendNew List.nodup_nil

/-- The columns of the table for some records. -/
def columns (records : List Record) : List String :=
  firstSeen (records.flatMap Keyed.keys)

/-- The cell under a key. -/
def cell (key : String) (value : Json) : Except DatasetError Value :=
  match Value.ofJson value with
  | .ok v => .ok v
  | .error cause => .error (.invalidValue key cause)

/-- The row with the value of an entry in the column of its key.  An entry whose key is no column is passed
over, whatever its value is. -/
def enter (columns : List String) (row : List Value) (e : String × Json) : Except DatasetError (List Value) :=
  match columns.idxOf? e.1 with
  | some index => do return row.set index (← cell e.1 e.2)
  | none => return row

/-- The row of a record: an empty one into which its entries are put one after the other. -/
def row (columns : List String) (r : Record) : Except DatasetError (List Value) :=
  r.entries.foldlM (enter columns) (List.replicate columns.length .null)

/-- The table of some records. -/
def table (records : List Record) : Except DatasetError Table := do
  let rows ← records.mapM (row (columns records))
  return { columns := columns records, rows }

/-- The table of the dataset in a text. -/
def ofText (text : String) : Except DatasetError Table :=
  match records? text with
  | some records => table records
  | none => .error .notRecords

end Dataset

end FilterLang
