import FilterLang.Proofs.Compile.Comparison
import FilterLang.Proofs.Json.Printed
import FilterLang.Proofs.Json.Reading
import FilterLang.Proofs.Table.Evaluation
import FilterLang.Table.Dataset

/-!
# One text for a number

A number with a point can be written in an expression and in a dataset.  The expression makes a decimal of
its digits; the dataset reads a double first, and the cell is the decimal that the double is printed as.
So the two agree exactly where nothing is lost on the way through the double
(`PointedNumber.decimal_agreesInDataset`): always with at most fifteen digits and 22 places, but neither
with sixteen digits nor with 23 places (`PointedNumber.differsInDataset_long`).
-/

namespace FilterLang

/-! ## The cell -/

/-- The cell that a number of a dataset is made into, if it can be one. -/
def Json.Numeral.cell? (n : Json.Numeral) : Option Value := do
  let number ← n.number?
  (Value.ofNumber number).toOption

/-- A double becomes the decimal that it is printed as. -/
theorem Json.Numeral.cell?_of_double {n : Json.Numeral} {x : Binary64} {d : Decimal}
    (hnumber : n.number? = some (.double false x)) (hd : Decimal.ofText? (Json.doubleChars x) = some d) :
    n.cell? = some (.decimal d) := by
  have hchars : (Json.Number.double false x).toChars = Json.doubleChars x := rfl
  have hread : Value.ofNumber (.double false x) = .ok (.decimal d) := by
    rw [Value.ofNumber, Value.decimalOfNumber, hchars, hd]
  rw [cell?, hnumber, Option.bind_eq_bind, Option.bind_some, hread]
  rfl

/-- The only column is the key, and the only cell its number. -/
theorem Dataset.table_singleton (number : Json.Number) :
    table [Keyed.ofList [("c", .number number)]] = do
      let v ← cell "c" (.number number)
      return { columns := ["c"], rows := [[v]] } := by
  have hentries : (Keyed.ofList [("c", Json.number number)]).entries = [("c", .number number)] := rfl
  have hcolumns : columns [Keyed.ofList [("c", Json.number number)]] = ["c"] := rfl
  have henter : enter ["c"] (List.replicate ["c"].length .null) ("c", .number number) = do
      let v ← cell "c" (.number number)
      return [v] := rfl
  rw [table, hcolumns]
  simp only [List.mapM_cons, List.mapM_nil, row, hentries, List.foldlM_cons, List.foldlM_nil, henter,
    bind_assoc, pure_bind]

namespace PointedNumber

variable {n : PointedNumber} {text : String} {d : Decimal}

/-! ## The dataset -/

/-- The dataset of one record that has the number under `c`. -/
def recordText (n : PointedNumber) : String :=
  String.ofList ('[' :: '{' :: '"' :: 'c' :: '"' :: ':' :: ' ' :: (n.chars ++ ['}', ']']))

theorem ofText?_recordText (n : PointedNumber) :
    Json.Document.ofText? n.recordText = some (.list [.object [(some "c", .numeral n.numeral)]]) := by
  refine Json.Document.ofText?_of_takeValue? ?_
  rw [recordText, String.toList_ofList]
  intro fuel hfuel
  -- one unit of fuel for the number, two for each bracket
  obtain ⟨f, rfl⟩ : ∃ f, fuel = f + 1 + 2 + 2 := by
    refine ⟨fuel - 5, ?_⟩
    simp only [List.length_cons] at hfuel
    omega
  have hvalue : Json.Document.takeValue? (f + 1) (' ' :: (n.chars ++ ['}', ']'])) =
      some (.numeral n.numeral, ['}', ']']) := by
    have hend : ¬Json.Numeral.Continues ['}', ']'] := Json.Numeral.not_continues_cons (by decide)
    rw [← Json.Document.takeValue?_skipSpace, ← n.plainChars_numeral]
    have hskip : Json.Document.skipSpace (' ' :: (n.numeral.plainChars ++ ['}', ']'])) =
        Json.Document.skipSpace (n.numeral.plainChars ++ ['}', ']']) := rfl
    rw [hskip, Json.Document.takeValue?_skipSpace]
    exact Json.Document.takeValue?_plainChars n.plain_numeral hend f
  have hkey : Json.Document.takeString? ('c' :: '"' :: ':' :: ' ' :: (n.chars ++ ['}', ']'])) =
      some (some "c", ':' :: ' ' :: (n.chars ++ ['}', ']'])) := by
    have hparts : Json.takeParts? ('c' :: '"' :: ':' :: ' ' :: (n.chars ++ ['}', ']'])) =
        some ([.char 'c'], ':' :: ' ' :: (n.chars ++ ['}', ']'])) := by
      simp [Json.takeParts?]
    rw [Json.Document.takeString?, hparts]
    rfl
  have hobject := Json.Document.takeValue?_object (Json.Document.takeEntries?_last hkey hvalue)
  exact Json.Document.takeValue?_list (Json.Document.takeItems?_last hobject)

theorem records?_recordText (n : PointedNumber) :
    Dataset.records? n.recordText =
      n.numeral.number?.map fun number => [Keyed.ofList [("c", .number number)]] := by
  have hdepth : ¬Dataset.maxDepth < Json.Document.depth
      (.list [.object [(some "c", .numeral n.numeral)]]) := by
    simp [Json.Document.depth, Json.Document.itemsDepth, Json.Document.entriesDepth, Dataset.maxDepth]
  rw [Dataset.records?, n.ofText?_recordText]
  simp only [Option.bind_eq_bind, Option.bind_some, if_neg hdepth, List.mapM_cons, List.mapM_nil,
    Dataset.record?, Json.Document.entries?, Json.Document.json?]
  cases n.numeral.number? with
  | none => rfl
  | some number => rfl

/-- The dataset is accepted if its number can be a cell. -/
theorem ofText_recordText_eq_ok_iff (n : PointedNumber) {t : Table} :
    Dataset.ofText n.recordText = .ok t ↔
      ∃ v, n.numeral.cell? = some v ∧ t = { columns := ["c"], rows := [[v]] } := by
  rw [Dataset.ofText, n.records?_recordText, Json.Numeral.cell?]
  cases n.numeral.number? with
  | none => simp
  | some number =>
    have hcell : Dataset.cell "c" (.number number) =
        (Value.ofNumber number).mapError (DatasetError.invalidValue "c") := by
      unfold Dataset.cell
      simp only [Value.ofJson]
      cases Value.ofNumber number with
      | error cause => rfl
      | ok v => rfl
    show Dataset.table [Keyed.ofList [("c", .number number)]] = _ ↔ _
    rw [Dataset.table_singleton, hcell]
    cases hread : Value.ofNumber number with
    | error cause => simp [hread, Except.mapError, Except.toOption]
    | ok v => simp [hread, Except.mapError, Except.toOption, eq_comm]

/-! ## Agreement -/

/-- Whether the number is the same one in a dataset and in an expression: the dataset is made into a table
of one row, and the comparison is compiled and bound to a condition on this table, which keeps the row. -/
def AgreesInDataset (n : PointedNumber) : Prop :=
  ∃ t row tree condition, Dataset.ofText n.recordText = .ok t ∧ t.rows = [row] ∧
    compile Grammar.standard n.comparisonText = .ok tree ∧
    t.bind Table.vocabulary tree = .ok condition ∧ t.select condition = [row]

/-- On a table with the only column `c` the comparison is a condition on its cell. -/
theorem bind_comparison (n : PointedNumber) (v : Value) (d : Decimal) :
    Table.bind { columns := ["c"], rows := [[v]] } Table.vocabulary
        (.node equalOperator (.leaf (.field "c")) (.leaf (n.literal d))) =
      .ok (.equal (.column ⟨0, "c"⟩) (.constant (.decimal d))) :=
  rfl

/-- The two agree exactly if the number can be a cell, and that cell agrees with the literal. -/
theorem agreesInDataset_iff
    (h : compile Grammar.standard n.text = .ok (.leaf (.literal text (.decimal d)))) :
    n.AgreesInDataset ↔ ∃ v, n.numeral.cell? = some v ∧ v.agrees (.decimal d) = true := by
  have hcomparison := compile_comparisonText_of_compile h
  have hselect : ∀ v : Value, Table.select { columns := ["c"], rows := [[v]] }
      (.equal (.column ⟨0, "c"⟩) (.constant (.decimal d))) = [[v]] ↔ v.agrees (.decimal d) = true := by
    intro v
    have hholds : (Condition.equal (.column ⟨0, "c"⟩) (.constant (.decimal d))).holds [v] =
        v.agrees (.decimal d) := rfl
    simp [Table.select, hholds]
  constructor
  · rintro ⟨t, row, tree, condition, hdata, hrow, hcompiled, hbound, hkept⟩
    obtain ⟨v, hv, rfl⟩ := n.ofText_recordText_eq_ok_iff.1 hdata
    rw [hcomparison] at hcompiled
    cases hcompiled
    rw [bind_comparison] at hbound
    cases hbound
    cases hrow
    exact ⟨v, hv, (hselect v).1 hkept⟩
  · rintro ⟨v, hv, hagrees⟩
    have hdata := n.ofText_recordText_eq_ok_iff.2 ⟨v, hv, rfl⟩
    exact ⟨_, [v], _, _, hdata, rfl, hcomparison, n.bind_comparison v d, (hselect v).2 hagrees⟩

/-- With at most fifteen digits and 22 places nothing is lost. -/
theorem cell?_agrees_of_fits (hd : Decimal.ofText? n.chars = some d) (hsize : n.size < 10 ^ 15)
    (hplaces : n.places ≤ 22) : ∃ v, n.numeral.cell? = some v ∧ v.agrees (.decimal d) = true := by
  obtain ⟨c, hc, hnegative, hsame⟩ := Json.ofText?_doubleChars_nearest hsize hplaces
  obtain ⟨e, hesize, heplaces, hesign⟩ :
      ∃ e : Decimal, n.size = e.size ∧ n.places = e.scale ∧ e.negative = false := by
    have hlt : n.size < Nat.pow 2 96 := by
      rw [Nat.pow_eq]
      omega
    have hle : n.places ≤ 28 := by omega
    exact ⟨⟨false, n.size, n.places, hlt, hle⟩, rfl, rfl, rfl⟩
  -- the literal has the digits as they stand
  have hexact := n.ofText?_chars_of_fits hesize heplaces hesign
  rw [hd] at hexact
  cases hexact
  refine ⟨.decimal c, ?_, ?_⟩
  · have hne := (isDigitRun_iff.1 n.isDigitRun_fraction).1
    exact Json.Numeral.cell?_of_double (Json.number?_of_fits hne hsize hplaces) hc
  · show c.sameNumber d = true
    rw [Decimal.sameNumber, beq_iff_eq, Decimal.coeff, Decimal.coeff, hnegative, hesign, Nat.pow_eq,
      Nat.pow_eq, ← hesize, ← heplaces]
    simp only [Bool.false_eq_true, if_false]
    exact_mod_cast hsame

/-- A number that is compiled to a decimal agrees in a dataset exactly if the cell that it is made into there
agrees with that decimal.  It does so whenever it has at most fifteen digits, zeros in front not counted,
and at most 22 of them behind the point. -/
theorem decimal_agreesInDataset (n : PointedNumber) {text : String} {d : Decimal}
    (h : compile Grammar.standard n.text = .ok (.leaf (.literal text (.decimal d)))) :
    (n.AgreesInDataset ↔ ∃ v, n.numeral.cell? = some v ∧ v.agrees (.decimal d) = true) ∧
      (n.size < 10 ^ 15 → n.places ≤ 22 → n.AgreesInDataset) := by
  have hiff := agreesInDataset_iff h
  refine ⟨hiff, ?_⟩
  intro hsize hplaces
  exact hiff.2 (cell?_agrees_of_fits (ofText?_of_compile h) hsize hplaces)

/-- The price `19.99` is the same number in a dataset. -/
theorem decimal_agreesInDataset_price :
    AgreesInDataset ⟨"19".toList, "99".toList, by decide, by decide, by decide⟩ := by
  have hcompiled : compile Grammar.standard "19.99" =
      .ok (.leaf (.literal "19.99" (.decimal ⟨false, 1999, 2, by decide, by decide⟩))) := by
    decide +kernel
  exact (decimal_agreesInDataset ⟨"19".toList, "99".toList, by decide, by decide, by decide⟩ hcompiled).2
    (by decide) (by decide)

/-- The number is compiled to a decimal, but it is not the same number in a dataset. -/
def DiffersInDataset (n : PointedNumber) : Prop :=
  ∃ text d, compile Grammar.standard n.text = .ok (.leaf (.literal text (.decimal d))) ∧ ¬n.AgreesInDataset

theorem differsInDataset_of_cell?
    (h : compile Grammar.standard n.text = .ok (.leaf (.literal text (.decimal d))))
    (hcell : n.numeral.cell?.any (·.agrees (.decimal d)) = false) : n.DiffersInDataset := by
  refine ⟨text, d, h, ?_⟩
  rw [agreesInDataset_iff h]
  rintro ⟨v, hv, hagrees⟩
  rw [hv, Option.any_some, hagrees] at hcell
  cases hcell

/-- Sixteen digits are too many: in a dataset `900719925474099.3` becomes `900719925474099.2`.  So are 23
places, which here get another digit behind them.  With 30 places the literal is zero, and the dataset is
refused. -/
theorem differsInDataset_long :
    DiffersInDataset ⟨"900719925474099".toList, "3".toList, by decide, by decide, by decide⟩ ∧
      DiffersInDataset ⟨"0".toList, "00000000002809622105706".toList, by decide, by decide, by decide⟩ ∧
      DiffersInDataset ⟨"0".toList, "000000000000000000000000000001".toList, by decide, by decide,
        by decide⟩ := by
  refine ⟨?_, ?_, ?_⟩
  · have hcompiled : compile Grammar.standard "900719925474099.3" = .ok (.leaf (.literal "900719925474099.3"
        (.decimal ⟨false, 9007199254740993, 1, by decide, by decide⟩))) := by
      decide +kernel
    exact differsInDataset_of_cell? hcompiled (by decide +kernel)
  · have hcompiled : compile Grammar.standard "0.00000000002809622105706" =
        .ok (.leaf (.literal "0.00000000002809622105706"
          (.decimal ⟨false, 2809622105706, 23, by decide, by decide⟩))) := by
      decide +kernel
    exact differsInDataset_of_cell? hcompiled (by decide +kernel)
  · have hcompiled : compile Grammar.standard "0.000000000000000000000000000001" =
        .ok (.leaf (.literal "0.000000000000000000000000000001"
          (.decimal ⟨false, 0, 28, by decide, by decide⟩))) := by
      decide +kernel
    exact differsInDataset_of_cell? hcompiled (by decide +kernel)

end PointedNumber

end FilterLang
