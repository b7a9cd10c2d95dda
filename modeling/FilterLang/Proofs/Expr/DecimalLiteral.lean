import FilterLang.Expr.DecimalPoint
import FilterLang.Grammar.Pattern
import FilterLang.Proofs.Number.Rational

/-!
# Decimal literals

A decimal literal is made of two integers with a point between them.  Two runs of digits that are read as
integers always make one.  Its text keeps every digit, but its value keeps them only where a decimal can stand
for the number they denote, and is rounded otherwise (`joinsExactly_iff`).  So there are literals with a value
other than the one that is written (`not_joinsExactly_places`).
-/

namespace FilterLang

variable {whole fraction : List Char} {x y : Operand}

/-- The operand is an integer under the text that it is read from. -/
theorem Pattern.readInteger?_eq_ok_iff {cs : List Char} :
    readInteger? cs = some (.ok x) ↔
      isDigitRun cs = true ∧ digitsValue cs < Nat.pow 2 63 ∧
        x = .literal (String.ofList cs) (.integer (Int64.ofNat (digitsValue cs))) := by
  unfold readInteger?
  constructor
  · intro h
    split at h
    · rename_i hrun
      dsimp only at h
      split at h
      · rename_i hfits
        cases h
        exact ⟨hrun, hfits, rfl⟩
      · cases h
    · cases h
  · rintro ⟨hrun, hfits, rfl⟩
    rw [if_pos hrun]
    dsimp only
    rw [if_pos hfits]

/-- Whether the integers that two runs of digits are read as can make no literal but the one under the text
with both runs whose value is the number that they denote. -/
def JoinsExactly (whole fraction : List Char) : Prop :=
  ∀ x y z, Pattern.readInteger? whole = some (.ok x) → Pattern.readInteger? fraction = some (.ok y) →
    joinAsDecimal (.leaf x : Tree PointRule) (.leaf y) = some z →
      ∃ d, z = .literal (String.ofList (whole ++ '.' :: fraction)) (.decimal d) ∧
        d.number = pointedValue whole fraction

/-- Two runs of digits that are read as integers always make a literal, under the text with both runs, and its
value is at most half a unit of its last place away from the number that they denote.  It is that number
exactly if there is a decimal that is, as there is whenever the places and all digits together fit. -/
theorem joinsExactly_iff (hx : Pattern.readInteger? whole = some (.ok x))
    (hy : Pattern.readInteger? fraction = some (.ok y)) :
    (∃ d, joinAsDecimal (.leaf x : Tree PointRule) (.leaf y) =
        some (.literal (String.ofList (whole ++ '.' :: fraction)) (.decimal d)) ∧
      2 * |d.number - pointedValue whole fraction| * 10 ^ d.scale ≤ 1) ∧
    (JoinsExactly whole fraction ↔ ∃ e : Decimal, e.number = pointedValue whole fraction) ∧
    (fraction.length ≤ Decimal.maxScale → digitsValue (whole ++ fraction) < Decimal.sizeLimit →
      JoinsExactly whole fraction) := by
  obtain ⟨hwhole, hsmall, hxrun⟩ := Pattern.readInteger?_eq_ok_iff.1 hx
  obtain ⟨hfraction, -, hyrun⟩ := Pattern.readInteger?_eq_ok_iff.1 hy
  have hfits : digitsValue whole + 1 < Decimal.sizeLimit := by
    have hlimits : Nat.pow 2 63 < Decimal.sizeLimit := by decide
    omega
  obtain ⟨d, hd, hrounds⟩ := Decimal.exists_ofText?_point hwhole hfraction hfits
  have hjoined : joinAsDecimal (.leaf x : Tree PointRule) (.leaf y) =
      some (.literal (String.ofList (whole ++ '.' :: fraction)) (.decimal d)) := by
    rw [hxrun, hyrun, joinAsDecimal_integers, hd]
    rfl
  have hexact : (∃ e : Decimal, e.number = pointedValue whole fraction) → JoinsExactly whole fraction := by
    intro hrepresented x' y' z hx' hy' hz
    rw [hx] at hx'
    cases hx'
    rw [hy] at hy'
    cases hy'
    rw [hjoined] at hz
    cases hz
    exact ⟨d, rfl, hrounds.exact hrepresented⟩
  refine ⟨⟨d, hjoined, hrounds.near⟩, ⟨?_, hexact⟩, ?_⟩
  · intro hjoins
    obtain ⟨e, -, he⟩ := hjoins x y _ hx hy hjoined
    exact ⟨e, he⟩
  · intro hplaces hdigits
    obtain ⟨e, hsign, hsize, hscale⟩ := Decimal.exists_positive hdigits hplaces
    refine hexact ⟨e, ?_⟩
    rw [Decimal.number_of_positive hsign, hsize, hscale, pointedValue_eq]

/-- With a zero behind it the last place of a decimal is read exactly. -/
theorem joinsExactly_trailingZero :
    let fraction := "00000000000000000000000000010".toList
    (∃ x, Pattern.readInteger? "0".toList = some (.ok x)) ∧
      (∃ y, Pattern.readInteger? fraction = some (.ok y)) ∧ fraction.length = 29 ∧
      JoinsExactly "0".toList fraction := by
  intro fraction
  have hx : Pattern.readInteger? "0".toList = some (.ok (.literal "0" (.integer 0))) := by decide +kernel
  have hy : Pattern.readInteger? fraction =
      some (.ok (.literal "00000000000000000000000000010" (.integer 10))) := by decide +kernel
  -- ten units of the 29th place are one of the 28th
  let unit : Decimal := ⟨false, 1, 28, by decide, by decide⟩
  refine ⟨⟨_, hx⟩, ⟨_, hy⟩, by decide, (joinsExactly_iff hx hy).2.1.2 ⟨unit, ?_⟩⟩
  have hdigits : digitsValue ("0".toList ++ fraction) = 10 := by decide
  have hplaces : fraction.length = 29 := by decide
  have hnumber : unit.number = 1 / 10 ^ 28 := by
    rw [Decimal.number_of_positive rfl]
    norm_num [unit]
  rw [hnumber, pointedValue_eq, hdigits, hplaces]
  norm_num

/-- With 29 places `0.00000000000000000000000000005` is twice what is written. -/
theorem not_joinsExactly_places :
    let fraction := "00000000000000000000000000005".toList
    let x : Operand := .literal "0" (.integer 0)
    let y : Operand := .literal "00000000000000000000000000005" (.integer 5)
    let d : Decimal := ⟨false, 1, 28, by decide, by decide⟩
    Pattern.readInteger? "0".toList = some (.ok x) ∧ Pattern.readInteger? fraction = some (.ok y) ∧
      joinAsDecimal (.leaf x : Tree PointRule) (.leaf y) =
        some (.literal "0.00000000000000000000000000005" (.decimal d)) ∧
      d.number = 2 * pointedValue "0".toList fraction ∧ ¬JoinsExactly "0".toList fraction := by
  intro fraction x y d
  have hx : Pattern.readInteger? "0".toList = some (.ok x) := by decide +kernel
  have hy : Pattern.readInteger? fraction = some (.ok y) := by decide +kernel
  have hjoined : joinAsDecimal (.leaf x : Tree PointRule) (.leaf y) =
      some (.literal "0.00000000000000000000000000005" (.decimal d)) := by decide +kernel
  have hvalue : pointedValue "0".toList fraction = 5 / 10 ^ 29 := by
    have hdigits : digitsValue ("0".toList ++ fraction) = 5 := by decide
    have hplaces : fraction.length = 29 := by decide
    rw [pointedValue_eq, hdigits, hplaces]
    norm_num
  have hnumber : d.number = 1 / 10 ^ 28 := by
    rw [Decimal.number_of_positive rfl]
    norm_num [d]
  refine ⟨hx, hy, hjoined, ?_, ?_⟩
  · rw [hnumber, hvalue]
    norm_num
  · intro hexact
    obtain ⟨e, he, hdenoted⟩ := hexact x y _ hx hy hjoined
    cases he
    rw [hnumber, hvalue] at hdenoted
    norm_num at hdenoted

end FilterLang
