import FilterLang.Number.Decimal

/-!
# Numbers written with a point

A `PointedNumber` is what expressions and JSON texts have in common: digits, a point and digits again.
Without the point the digits are one natural number, and a decimal with room for it is read digit for digit
(`PointedNumber.ofText?_chars_of_fits`).
-/

namespace FilterLang

/-- Digits on both sides of a point, with no superfluous zero in front. -/
structure PointedNumber where
  whole : List Char
  fraction : List Char
  isDigitRun_whole : isDigitRun whole = true
  isDigitRun_fraction : isDigitRun fraction = true
  eq_zero_of_head : whole.head? = some '0' → whole = ['0']

namespace PointedNumber

variable (n : PointedNumber)

def chars : List Char :=
  n.whole ++ '.' :: n.fraction

def text : String :=
  String.ofList n.chars

/-- The digits as one number, without the point. -/
def size : Nat :=
  digitsValue (n.whole ++ n.fraction)

/-- How many digits stand behind the point. -/
def places : Nat :=
  n.fraction.length

/-- A number for which a decimal has room is read as it stands. -/
theorem ofText?_chars_of_fits {d : Decimal} (hsize : n.size = d.size) (hplaces : n.places = d.scale)
    (hsign : d.negative = false) : Decimal.ofText? n.chars = some d := by
  have hdigits : ∀ c ∈ n.whole ++ n.fraction, c.isDigit = true := by
    intro c hc
    exact (List.mem_append.1 hc).elim (isDigit_of_mem_run n.isDigitRun_whole)
      (isDigit_of_mem_run n.isDigitRun_fraction)
  have hread := Decimal.ofDigits?_of_fits hdigits hsize hplaces
  rw [chars, Decimal.ofText?_of_point n.isDigitRun_whole n.isDigitRun_fraction, ← hsign, hread,
    Decimal.dropZeroSign_of_positive hsign]

end PointedNumber

end FilterLang
