import FilterLang.Number.Binary64

/-!
# Shortest digits

The digits a double is printed with: of all decimals that round to it, one with the fewest digits,
and among those the nearest.  `Binary64.shortest` looks at ever finer decimal grids, `10 ^ x` first
for a double whose leading digit stands for `10 ^ x`; on each grid only the two points around the
double can be nearest, and the first grid on which one of them reads back gives the digits.
-/

namespace FilterLang.Binary64

/-! ## The decimals that read back -/

/-- The double divided by a power of ten, as a numerator and a denominator. -/
def onGrid (x : Binary64) (exponent : Int) : Nat × Nat :=
  (x.units * Nat.pow 10 (-exponent).toNat, one * Nat.pow 10 exponent.toNat)

/-- Whether `c * 10 ^ exponent` rounds to the double.  A bound halfway to a neighbour belongs to the
double with the even significand, and below a power of two the neighbour is half as far. -/
def readsBack (x : Binary64) (exponent : Int) (c : Nat) : Bool :=
  let step := spacing x.units
  let significand := x.units / step
  let gap := if significand = Nat.pow 2 52 ∧ 1 < step then step else 2 * step
  let scale := Nat.pow 10 (-exponent).toNat
  let low := (4 * x.units - gap) * scale
  let high := (4 * x.units + 2 * step) * scale
  let point := 4 * c * (x.onGrid exponent).2
  if significand % 2 = 0 then low ≤ point && point ≤ high else low < point && point < high

/-- The point of a grid that is nearest to the double, if one of the two around it reads back. -/
def gridPoint? (x : Binary64) (exponent : Int) : Option Nat :=
  let (num, den) := x.onGrid exponent
  let below := num / den
  match x.readsBack exponent below, x.readsBack exponent (below + 1) with
  | true, true => some (halfEven num den)
  | true, false => some below
  | false, true => some (below + 1)
  | false, false => none

/-! ## The search -/

/-- The power of ten the leading digit stands for, in a double that is not zero. -/
def leadingExponent (x : Binary64) : Int :=
  let (num, den) := x.onGrid (-324)
  (naturalDigits (num / den)).length - 325

/-- Drops zeros at the end of the digits, raising the exponent by one for each. -/
def dropZeros (digits : List Char) (exponent : Int) : List Char × Int :=
  let kept := (digits.reverse.dropWhile (· = '0')).reverse
  (kept, exponent + (digits.length - kept.length : Nat))

/-- The shortest digits of a double that is not zero, and the power of ten of the last of them.
Seventeen digits always suffice. -/
def shortest (x : Binary64) : List Char × Int :=
  let top := x.leadingExponent
  let hit? (n : Nat) : Option (List Char × Int) :=
    let exponent := top - n
    (x.gridPoint? exponent).map fun c => dropZeros (naturalDigits c) exponent
  let (num, den) := x.onGrid (top - 16)
  ((List.range 17).findSome? hit?).getD (dropZeros (naturalDigits (halfEven num den)) (top - 16))

end FilterLang.Binary64
