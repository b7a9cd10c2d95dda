import FilterLang.Proofs.Json.Numeral
import FilterLang.Proofs.Table.Growth
import FilterLang.Proofs.Table.Meaning

/-!
# Rows as they are shown

A row is shown as an object with a field for every name of a column.  A cell with a number is shown as a number
and no other cell is: the text of a decimal is a numeral, and no decimal is too large to be read as a double
(`Table.numbers_shown`).

Where a name is repeated, the field shows the cell of the last column of the name, while a filter looks at the
first one.  So a name means the same to both exactly if it is there once (`Table.showsLocated_iff`).
-/

namespace FilterLang

/-! ## Numbers -/

namespace Value

/-- Whether the value is a number. -/
def isNumber : Value → Bool
  | integer _ => true
  | decimal _ => true
  | _ => false

theorem exists_toJson_decimal (d : Decimal) : ∃ (n : Json.Numeral) (number : Json.Number),
    n.Plain ∧ d.toChars = n.plainChars ∧ Json.Numeral.take? d.toChars = some (n, []) ∧
      n.number? = some number ∧ (decimal d).toJson = .number number := by
  obtain ⟨n, hplain, hchars, hwhole⟩ := d.exists_numeral
  obtain ⟨number, hnumber⟩ := Json.Numeral.exists_number? hplain hwhole
  have htake : Json.Numeral.take? d.toChars = some (n, []) := by
    have hall := hplain.take?_append Json.Numeral.not_continues_nil
    rw [List.append_nil] at hall
    rw [hchars, hall]
  refine ⟨n, number, hplain, hchars, htake, hnumber, ?_⟩
  have hread : Json.Number.ofText? d.toChars = some number := by
    rw [Json.Number.ofText?, htake]
    exact hnumber
  rw [toJson, hread]

theorem exists_toJson_eq_number_iff {v : Value} :
    (∃ number, v.toJson = .number number) ↔ v.isNumber = true := by
  cases v with
  | null => simp [toJson, isNumber]
  | boolean value => simp [toJson, isNumber]
  | integer value => simp [toJson, isNumber]
  | string value => simp [toJson, isNumber]
  | decimal d =>
    obtain ⟨-, number, -, -, -, -, hjson⟩ := exists_toJson_decimal d
    exact ⟨fun _ => rfl, fun _ => ⟨number, hjson⟩⟩

/-- Whether the value is a decimal. -/
def isDecimal : Value → Bool
  | decimal _ => true
  | _ => false

/-- What is shown of a value gives the value again, unless it is a decimal. -/
theorem ofJson_toJson {v : Value} (h : v.isDecimal = false) : ofJson v.toJson = .ok v := by
  cases v with
  | null => rfl
  | boolean value => rfl
  | string value => rfl
  | decimal d => cases h
  | integer value =>
    have hrange : -Nat.pow 2 63 ≤ value.toInt ∧ value.toInt < Nat.pow 2 63 :=
      ⟨value.le_toInt, value.toInt_lt⟩
    simp only [toJson, ofJson, ofNumber, if_pos hrange, Int64.ofInt_toInt]

end Value

/-! ## Fields of a row -/

/-- The cell in the last column of the name. -/
def lastCell? (columns : List String) (row : List Value) (name : String) : Option Value :=
  (columns.zip row).reverse.lookup name

section LastCell

variable {columns front back : List String} {row before after : List Value} {name : String} {v : Value}

theorem lastCell?_append (h : front.length = before.length) (name' : String) :
    lastCell? (front ++ name :: back) (before ++ v :: after) name' =
      (lastCell? back after name').or
        ((if name = name' then some v else none).or (lastCell? front before name')) := by
  have hsingle : List.lookup name' [(name, v)] = if name = name' then some v else none := by
    by_cases hname : name = name'
    · simp [hname]
    · simp [List.lookup_cons, beq_eq_false_iff_ne.2 (Ne.symm hname), hname]
  unfold lastCell?
  rw [List.zip_append h, List.zip_cons_cons, List.reverse_append, List.reverse_cons, List.lookup_append,
    List.lookup_append, hsingle, Option.or_assoc]

/-- The cell stands in a column of the name. -/
theorem exists_column_of_lastCell? (h : lastCell? columns row name = some v) :
    ∃ index : Nat, columns[index]? = some name ∧ row[index]? = some v := by
  obtain ⟨later, earlier, hsplit, -⟩ := List.lookup_eq_some_iff.1 h
  have hmem : (name, v) ∈ (columns.zip row).reverse := by
    rw [hsplit]
    exact List.mem_append_right _ List.mem_cons_self
  obtain ⟨index, hindex⟩ := List.mem_iff_getElem?.1 (List.mem_reverse.1 hmem)
  exact ⟨index, List.getElem?_zip_eq_some.1 hindex⟩

theorem lastCell?_eq_none (h : name ∉ columns) : lastCell? columns row name = none := by
  cases hcell : lastCell? columns row name with
  | none => rfl
  | some v =>
    obtain ⟨index, hindex, -⟩ := exists_column_of_lastCell? hcell
    exact absurd (List.mem_of_getElem? hindex) h

end LastCell

namespace Table

variable {t : Table} {row : List Value} {name : String}

theorem field?_rowJson (t : Table) (row : List Value) (name : String) :
    (t.rowJson row).field? name = (lastCell? t.columns row name).map Value.toJson := by
  show (Keyed.ofList ((t.columns.zip row).map fun e => (e.1, e.2.toJson))).get? name = _
  rw [Keyed.get?_ofList, ← List.map_reverse, Keyed.lookup_map, lastCell?]

/-- A cell with a number is never shown as anything else.  Every decimal, whatever its sign, size and scale
are, is written as a numeral of JSON without an exponent, and this numeral is read to its end and gives a
number.  So a value gives a number exactly if it is one, and what a row shows under a name is made of a
cell in a column of this name, a number being made of the last such cell exactly if this is one. -/
theorem numbers_shown :
    (∀ d : Decimal, ∃ (n : Json.Numeral) (number : Json.Number),
      n.Plain ∧ d.toChars = n.plainChars ∧ Json.Numeral.take? d.toChars = some (n, []) ∧
        n.number? = some number ∧ (Value.decimal d).toJson = .number number) ∧
    (∀ v : Value, (∃ number, v.toJson = .number number) ↔ v.isNumber = true) ∧
    ∀ (t : Table) (row : List Value) (name : String),
      (∀ value, (t.rowJson row).field? name = some value →
        ∃ (index : Nat) (v : Value), t.columns[index]? = some name ∧ row[index]? = some v ∧
          value = v.toJson) ∧
      ∀ v, lastCell? t.columns row name = some v →
        ((∃ number, (t.rowJson row).field? name = some (.number number)) ↔ v.isNumber = true) := by
  refine ⟨Value.exists_toJson_decimal, fun v => Value.exists_toJson_eq_number_iff, ?_⟩
  intro t row name
  rw [field?_rowJson]
  refine ⟨?_, ?_⟩
  · intro value hvalue
    obtain ⟨v, hcell, rfl⟩ := Option.map_eq_some_iff.1 hvalue
    obtain ⟨index, hcolumn, hv⟩ := exists_column_of_lastCell? hcell
    exact ⟨index, v, hcolumn, hv, rfl⟩
  · intro v hcell
    rw [hcell, Option.map_some, ← Value.exists_toJson_eq_number_iff]
    simp only [Option.some.injEq]

/-- A negative zero with all its places is a number too, under the second of two columns of one name. -/
theorem numbers_shown_negativeZero :
    let zero : Decimal := ⟨true, 0, 28, by decide, by decide⟩
    let t : Table := { columns := ["a", "a"], rows := [[.string "0", .decimal zero]] }
    ∃ number, (t.rowJson [.string "0", .decimal zero]).field? "a" = some (.number number) := by
  intro zero t
  have hcell : lastCell? t.columns [.string "0", .decimal zero] "a" = some (.decimal zero) := by rfl
  obtain ⟨-, -, hrow⟩ := numbers_shown
  exact ((hrow t [.string "0", .decimal zero] "a").2 _ hcell).2 rfl

/-! ## Shown and located -/

/-- Whether each row shows under the name the cell in the column at which a filter locates the name. -/
def ShowsLocated (t : Table) (name : String) : Prop :=
  ∀ row ∈ t.rows, ∃ column v, (t.locate name).run.run = .ok column ∧ row[column.index]? = some v ∧
    (t.rowJson row).field? name = some v.toJson

theorem run_locate {index : Nat} (h : t.indexOf? name = some index) :
    (t.locate name).run.run = .ok ⟨index, name⟩ := by
  rw [locate, h]
  rfl

section Split

variable {front back : List String}

/-- The first column of the name. -/
theorem indexOf?_of_split (hcolumns : t.columns = front ++ name :: back) (hfront : name ∉ front) :
    t.indexOf? name = some front.length := by
  rw [indexOf?, hcolumns, List.idxOf?_eq_some_iff]
  refine ⟨by simp, by simp, ?_⟩
  intro j hj heq
  rw [List.getElem_append_left hj] at heq
  exact hfront (heq ▸ List.getElem_mem hj)

theorem count_eq_one_iff_of_split (hfront : name ∉ front) :
    (front ++ name :: back).count name = 1 ↔ name ∉ back := by
  rw [List.count_append, List.count_cons_self, List.count_eq_zero_of_not_mem hfront,
    ← List.count_eq_zero (l := back)]
  omega

/-- The cells of a row around the first column of the name. -/
theorem exists_cells (hwidth : row.length = (front ++ name :: back).length) :
    ∃ before v after, row = before ++ v :: after ∧ front.length = before.length := by
  have hlt : front.length < row.length := by
    rw [hwidth]
    simp
  refine ⟨row.take front.length, row[front.length], row.drop (front.length + 1), ?_, ?_⟩
  · rw [List.getElem_cons_drop hlt, List.take_append_drop]
  · rw [List.length_take, Nat.min_eq_left (Nat.le_of_lt hlt)]

/-- A name that is there once is shown as it is located. -/
theorem showsLocated_of_split (ht : t.Rectangular) (hcolumns : t.columns = front ++ name :: back)
    (hfront : name ∉ front) (hback : name ∉ back) : t.ShowsLocated name := by
  intro row hrow
  obtain ⟨before, v, after, rfl, hlen⟩ := exists_cells (hcolumns ▸ ht row hrow)
  refine ⟨_, v, run_locate (indexOf?_of_split hcolumns hfront), ?_, ?_⟩
  · simp [hlen]
  · rw [field?_rowJson, hcolumns, lastCell?_append hlen, lastCell?_eq_none hback, if_pos rfl]
    rfl

end Split

theorem exists_lastCell? {columns : List String} (hwidth : row.length = columns.length)
    (hname : name ∈ columns) : ∃ v, lastCell? columns row name = some v := by
  obtain ⟨front, back, rfl, -⟩ := List.eq_append_cons_of_mem hname
  obtain ⟨before, v, after, rfl, hlen⟩ := exists_cells hwidth
  rw [lastCell?_append hlen, if_pos rfl]
  cases lastCell? back after name with
  | none => exact ⟨v, rfl⟩
  | some u => exact ⟨u, rfl⟩

/-- If a name is there again, a row with `true` in the first column of the name and nothing else shows no value
under it. -/
theorem exists_not_showsLocated {front back : List String} (hfront : name ∉ front) (hback : name ∈ back) :
    ∃ row, ¬(offerAll { columns := front ++ name :: back } [row]).ShowsLocated name := by
  let nulls (names : List String) : List Value := List.replicate names.length .null
  let row : List Value := nulls front ++ .boolean true :: nulls back
  refine ⟨row, fun hshows => ?_⟩
  have hcolumns : (offerAll { columns := front ++ name :: back } [row]).columns = front ++ name :: back :=
    columns_offerAll _ _
  have hmem : row ∈ (offerAll { columns := front ++ name :: back } [row]).rows := by
    rw [rows_offerAll, List.nil_append]
    refine List.mem_filter.2 ⟨List.mem_singleton_self row, ?_⟩
    simp [fits, row, nulls]
  obtain ⟨column, v, hlocate, hv, hfield⟩ := hshows row hmem
  rw [run_locate (indexOf?_of_split hcolumns hfront)] at hlocate
  cases hlocate
  -- the name is located at the one cell that holds something; what is shown is a cell further back
  have hfirst : v = .boolean true := by
    simpa [row, nulls, eq_comm] using hv
  have hlast : lastCell? (front ++ name :: back) row name = some .null := by
    have hwidth : (nulls back).length = back.length := List.length_replicate
    obtain ⟨u, hu⟩ := exists_lastCell? hwidth hback
    obtain ⟨index, -, hindex⟩ := exists_column_of_lastCell? hu
    have hnull : u = .null := List.eq_of_mem_replicate (List.mem_of_getElem? hindex)
    rw [lastCell?_append (List.length_replicate).symm, hu, hnull]
    rfl
  rw [field?_rowJson, hcolumns, hlast, hfirst] at hfield
  cases hfield

/-! ## Selected and shown -/

/-- A comparison of a field with a constant is bound to a condition on the column of the field. -/
theorem bind_comparison_field {ρ : Type} {index : Nat} (hindex : t.indexOf? name = some index)
    {op : Operator ρ} (hkind : op.kind = .binary) (htoken : op.token = "=") (text : String) (value : Literal) :
    t.bind Table.vocabulary (.node op (.leaf (.field name)) (.leaf (.literal text value))) =
      .ok (.equal (.column ⟨index, name⟩) (.constant value.toValue)) := by
  rw [bind_eq_ok_iff, evaluate_node_eq_ok_iff]
  refine ⟨hkind, rfl, rfl, connectives.equal, .location ⟨index, name⟩, .literal value, _, ?_,
    evaluate_field_eq_ok_iff.2 ⟨index, hindex, rfl⟩, evaluate_literal text value, rfl, rfl⟩
  rw [get?_vocabulary, if_pos htoken]

/-- What a row that is selected by comparing a field with a constant shows under the name of the field. -/
theorem exists_shown_of_mem_select (hshows : t.ShowsLocated name) {index : Nat}
    (hindex : t.indexOf? name = some index) {value : Value}
    (hrow : row ∈ t.select (.equal (.column ⟨index, name⟩) (.constant value))) :
    ∃ v : Value, (t.rowJson row).field? name = some v.toJson ∧ v.agrees value = true := by
  obtain ⟨hmem, hholds⟩ := List.mem_filter.1 hrow
  obtain ⟨column, v, hlocate, hv, hfield⟩ := hshows row hmem
  rw [run_locate hindex] at hlocate
  cases hlocate
  have hagrees : v.agrees value = true := by
    simpa only [Condition.holds, Term.value, hv, Option.getD_some] using hholds
  exact ⟨v, hfield, hagrees⟩

/-- However many rows are inserted, a row shows under a name the cell in the last column of the name.  This is
the cell at which the name is located, whatever the rows are, exactly if the name is there once.  Then a row
that is selected by comparing the field with a constant shows a value that agrees with the constant,
and unless this is a decimal it can be read back. -/
theorem showsLocated_iff {ρ : Type} (columns : List String) (name : String) (hname : name ∈ columns) :
    ((∀ rows, (offerAll { columns } rows).ShowsLocated name) ↔ columns.count name = 1) ∧
    ∀ rows, let t := offerAll { columns } rows
      (∀ row ∈ t.rows, ∃ v, lastCell? columns row name = some v ∧
        (t.rowJson row).field? name = some v.toJson) ∧
      (columns.count name = 1 →
        ∀ (op : Operator ρ) (text : String) (value : Literal), op.kind = .binary → op.token = "=" →
          ∃ c, t.bind Table.vocabulary (.node op (.leaf (.field name)) (.leaf (.literal text value))) =
              .ok c ∧
            ∀ row ∈ t.select c, ∃ v : Value, (t.rowJson row).field? name = some v.toJson ∧
              v.agrees value.toValue = true ∧ (v.isDecimal = false → Value.ofJson v.toJson = .ok v)) := by
  obtain ⟨front, back, rfl, hfront⟩ := List.eq_append_cons_of_mem hname
  rw [count_eq_one_iff_of_split hfront]
  have hcolumns : ∀ rows, (offerAll { columns := front ++ name :: back } rows).columns =
      front ++ name :: back := fun rows => columns_offerAll _ rows
  have hwidth : ∀ rows, (offerAll { columns := front ++ name :: back } rows).Rectangular := by
    intro rows
    exact rectangular_offerAll (rectangular_of_created (.empty _)) rows
  have hshows : name ∉ back → ∀ rows, (offerAll { columns := front ++ name :: back } rows).ShowsLocated name :=
    fun hback rows => showsLocated_of_split (hwidth rows) (hcolumns rows) hfront hback
  refine ⟨⟨?_, hshows⟩, fun rows => ⟨?_, ?_⟩⟩
  · intro hall hback
    obtain ⟨row, hrow⟩ := exists_not_showsLocated hfront hback
    exact hrow (hall [row])
  · intro row hrow
    have hlen : row.length = (front ++ name :: back).length := hcolumns rows ▸ hwidth rows row hrow
    obtain ⟨v, hv⟩ := exists_lastCell? hlen hname
    exact ⟨v, hv, by rw [field?_rowJson, hcolumns, hv, Option.map_some]⟩
  · intro hback op text value hkind htoken
    have hindex := indexOf?_of_split (hcolumns rows) hfront
    refine ⟨_, bind_comparison_field hindex hkind htoken text value, ?_⟩
    intro row hrow
    obtain ⟨v, hfield, hagrees⟩ := exists_shown_of_mem_select (hshows hback rows) hindex hrow
    exact ⟨v, hfield, hagrees, Value.ofJson_toJson⟩

/-- `{b} = 1` selects a row in which `b` is shown as 1; the row that does not fit is not there. -/
theorem showsLocated_iff_price :
    let t := offerAll { columns := ["a", "b"] } [[.null, .integer 1], [.integer 1], [.integer 1, .null]]
    let tree : Tree Empty := .node ⟨"=", 20, .binary⟩ (.leaf (.field "b")) (.leaf (.literal "1" (.integer 1)))
    t.ShowsLocated "b" ∧
      ∃ c, t.bind Table.vocabulary tree = .ok c ∧ t.select c = [[.null, .integer 1]] ∧
        ∃ v : Value, (t.rowJson [.null, .integer 1]).field? "b" = some v.toJson ∧
          v.agrees (.integer 1) = true := by
  intro t tree
  obtain ⟨hiff, hrows⟩ := showsLocated_iff (ρ := Empty) ["a", "b"] "b" (by decide)
  have honce : ["a", "b"].count "b" = 1 := by decide
  obtain ⟨-, hselected⟩ := hrows [[.null, .integer 1], [.integer 1], [.integer 1, .null]]
  obtain ⟨c, hbind, hall⟩ := hselected honce ⟨"=", 20, .binary⟩ "1" (.integer 1) rfl rfl
  have hselect : t.select c = [[.null, .integer 1]] := by
    cases hbind
    decide
  obtain ⟨v, hfield, hagrees, -⟩ := hall [.null, .integer 1] (hselect ▸ List.mem_singleton_self _)
  exact ⟨hiff.2 honce _, c, hbind, hselect, v, hfield, hagrees⟩

/-- With two columns of the name `a`, the row selected by `{a} = 1` shows 2 under this name. -/
theorem not_showsLocated_repeatedName :
    let t := offerAll { columns := ["a", "a"] } [[.integer 1, .integer 2]]
    let tree : Tree Empty := .node ⟨"=", 20, .binary⟩ (.leaf (.field "a")) (.leaf (.literal "1" (.integer 1)))
    let c : Condition := .equal (.column ⟨0, "a"⟩) (.constant (.integer 1))
    ¬t.ShowsLocated "a" ∧ t.bind Table.vocabulary tree = .ok c ∧
      t.select c = [[.integer 1, .integer 2]] ∧
      t.rowJson [.integer 1, .integer 2] = .object [("a", .number (.integer 2))] := by
  intro t tree c
  refine ⟨?_, by rfl, by decide, by rfl⟩
  intro hshows
  obtain ⟨column, v, hlocate, hv, hfield⟩ := hshows [.integer 1, .integer 2] List.mem_cons_self
  cases hlocate
  cases hv
  cases hfield

end Table

end FilterLang
