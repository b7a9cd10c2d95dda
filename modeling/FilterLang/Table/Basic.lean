import FilterLang.Table.Condition

/-!
# Tables

A table has named columns and rows of cells.  Names may repeat: a name stands for its first column,
but a row that is written out shows the cell of the last column of each name.
-/

namespace FilterLang

/-- Named columns and rows with a cell for each of them. -/
structure Table where
  columns : List String := []
  rows : List (List Value) := []
deriving DecidableEq

/-- A row that does not fit its table. -/
structure WidthMismatch where
  cells : Nat
  columns : Nat
deriving DecidableEq

/-- The message for a row that does not fit. -/
def WidthMismatch.message (e : WidthMismatch) : String :=
  "Value count " ++ toString e.cells ++ " doesn't match column count " ++ toString e.columns

namespace Table

/-- Appends a row, which needs as many cells as there are columns. -/
def insert (t : Table) (row : List Value) : Except WidthMismatch Table :=
  if row.length = t.columns.length then .ok { t with rows := t.rows ++ [row] }
  else .error ⟨row.length, t.columns.length⟩

theorem insert_eq_ok_iff {t u : Table} {row : List Value} :
    t.insert row = .ok u ↔
      row.length = t.columns.length ∧ u = { t with rows := t.rows ++ [row] } := by
  unfold insert
  split <;> simp_all [eq_comm]

/-- The position of the first column with the name. -/
def indexOf? (t : Table) (name : String) : Option Nat :=
  t.columns.idxOf? name

/-- The rows that fulfil the condition, in the order of the table. -/
def select (t : Table) (c : Condition) : List (List Value) :=
  t.rows.filter fun row => c.holds row

/-- A row as an object with the names of the columns as keys. -/
def rowJson (t : Table) (row : List Value) : Json :=
  .object (Keyed.ofList ((t.columns.zip row).map fun (name, v) => (name, v.toJson))).entries

end Table

end FilterLang
