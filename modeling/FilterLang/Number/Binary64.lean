import FilterLang.Number.Digits

/-!
# Double precision

The finite doubles that are not negative, without the machine: each of them is a whole number of
units of `2 ^ -1074`, and those numbers of units are exactly the naturals below `2 ^ 2098` that have
at most 53 bits from their highest set bit on.  `Binary64.nearest` rounds a quotient to the nearest
of them (to the even one of two, and above the largest as if the range went on); the arithmetic is
that rounding applied to exact results.
-/

namespace FilterLang

/-- A double that is zero or positive, counted in units of `2 ^ -1074`. -/
structure Binary64 where
  units : Nat
deriving DecidableEq

namespace Binary64

/-- The units in one. -/
def one : Nat := Nat.pow 2 1074

/-- The distance to the next larger double, for a double of that many units: 53 bits count. -/
def spacing (units : Nat) : Nat :=
  Nat.pow 2 (units.log2 - 52)

/-- The double nearest to `num / den`, of two nearest the one with an even significand. -/
def nearest (num den : Nat) : Binary64 :=
  let step := spacing (num * one / den)
  ⟨halfEven (num * one) (den * step) * step⟩

/-- Whether the value is below `2 ^ 1024`, where the doubles end. -/
def isFinite (x : Binary64) : Bool :=
  x.units < Nat.pow 2 2098

/-- The double nearest to a natural number. -/
def ofNat (n : Nat) : Binary64 := nearest n 1

/-- The double nearest to a power of ten. -/
def powTen (k : Nat) : Binary64 := nearest (Nat.pow 10 k) 1

/-- The double nearest to the product. -/
def mul (x y : Binary64) : Binary64 := nearest (x.units * y.units) (one * one)

/-- The double nearest to the quotient. -/
def div (x y : Binary64) : Binary64 := nearest x.units y.units

end Binary64

end FilterLang
