import FilterLang.Expr.Tree

/-!
# The decimal point

The one rule of reduction that the language itself has: two integers around a point make a decimal.
Both runs of digits are kept as they are written, so that `1.50` has two places.
-/

namespace FilterLang

variable {ρ : Type}

/-- The text of an integer constant. -/
def Tree.integerText? : Tree ρ → Option String
  | leaf (.literal text (.integer _)) => some text
  | _ => none

/-- Two integers, the digits of the first in front of a point and those of the second behind it. -/
def joinAsDecimal (left right : Tree ρ) : Option Operand := do
  let whole ← left.integerText?
  let fraction ← right.integerText?
  let text := whole ++ "." ++ fraction
  let value ← Decimal.ofText? text.toList
  return .literal text (.decimal value)

/-- Two integers with their digits make what the digits around a point are read as. -/
theorem joinAsDecimal_integers (whole fraction : List Char) (i j : Int64) :
    joinAsDecimal (.leaf (.literal (String.ofList whole) (.integer i)) : Tree ρ)
        (.leaf (.literal (String.ofList fraction) (.integer j))) =
      (Decimal.ofText? (whole ++ '.' :: fraction)).map fun d =>
        .literal (String.ofList (whole ++ '.' :: fraction)) (.decimal d) := by
  have htext : String.ofList whole ++ "." ++ String.ofList fraction =
      String.ofList (whole ++ '.' :: fraction) := by
    rw [String.append_assoc]
    simp
  simp only [joinAsDecimal, Tree.integerText?, Option.bind_eq_bind, Option.bind_some, htext,
    String.toList_ofList]
  cases Decimal.ofText? (whole ++ '.' :: fraction) with
  | none => rfl
  | some d => rfl

/-- The rule that joins two integers to a decimal. -/
inductive PointRule where
  | join
deriving DecidableEq

instance : Reducer PointRule where
  reduce _ := joinAsDecimal

end FilterLang
