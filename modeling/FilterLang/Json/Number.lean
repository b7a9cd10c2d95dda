import FilterLang.Number.Shortest

/-!
# Numbers in JSON

`Numeral` is a number as it is written, digit for digit; `Number` is what it is read as.  An integer of
64 bits, with or without a sign, is read exactly; every other number becomes a double, and so does
a negative zero.  The double is computed in few steps and is not always the nearest one: the digits
are gathered into an integer of 64 bits for as long as they fit, and that integer is then multiplied
or divided by a power of ten.
-/

namespace FilterLang.Json

/-! ## Numbers as they are written -/

/-- A number as it is written.  Without a point the fraction is empty; the exponent has a sign of its
own. -/
structure Numeral where
  negative : Bool
  whole : List Char
  fraction : List Char
  exponent : Option (Bool × List Char)
deriving DecidableEq

/-- Whether the text begins with the character, and the text behind it. -/
def takeChar (c : Char) : List Char → Bool × List Char
  | [] => (false, [])
  | head :: rest => if head = c then (true, rest) else (false, head :: rest)

/-- A run of at least one digit and the text behind it. -/
def takeDigits? (cs : List Char) : Option (List Char × List Char) :=
  let digits := cs.takeWhile Char.isDigit
  if digits.isEmpty then none else some (digits, cs.dropWhile Char.isDigit)

/-- The fraction, if a point stands in front, and the text behind it. -/
def takeFraction? (cs : List Char) : Option (List Char × List Char) :=
  match takeChar '.' cs with
  | (true, rest) => takeDigits? rest
  | (false, rest) => some ([], rest)

/-- The exponent, if a letter for it stands in front, and the text behind it. -/
def takeExponent? : List Char → Option (Option (Bool × List Char) × List Char)
  | [] => some (none, [])
  | c :: rest =>
    if c = 'e' ∨ c = 'E' then do
      let (negative, rest) := takeChar '-' rest
      let (_, rest) := if negative then (false, rest) else takeChar '+' rest
      let (digits, rest) ← takeDigits? rest
      return (some (negative, digits), rest)
    else some (none, c :: rest)

/-- Reads a number and gives the text behind it.  Only a zero that stands alone may lead. -/
def Numeral.take? (cs : List Char) : Option (Numeral × List Char) := do
  let (negative, rest) := takeChar '-' cs
  let (whole, rest) ← takeDigits? rest
  if whole.head? = some '0' ∧ whole ≠ ['0'] then none
  else
    let (fraction, rest) ← takeFraction? rest
    let (exponent, rest) ← takeExponent? rest
    return (⟨negative, whole, fraction, exponent⟩, rest)

/-! ## Numbers as they are read -/

/-- A number: an integer of 64 bits, or a double with its sign. -/
inductive Number where
  | integer (value : Int)
  | double (negative : Bool) (size : Binary64)
deriving DecidableEq

/-- Appends digits to a significand for as long as it stays below `2 ^ 64`, and gives the digits left
over. -/
def gather (significand : Nat) : List Char → Nat × List Char
  | [] => (significand, [])
  | d :: rest =>
    let longer := 10 * significand + digitsValue [d]
    if longer < Nat.pow 2 64 then gather longer rest else (significand, d :: rest)

/-- The double for a significand times a power of ten, if it is finite.  A power of ten is a double
only up to `10 ^ 308`; below that the division takes two steps, and after two whole steps nothing is
left of a significand of 64 bits. -/
def scaled? (significand : Nat) (exponent : Int) : Option Binary64 :=
  let f := Binary64.ofNat significand
  let k := exponent.natAbs
  if exponent < 0 then
    if k ≤ 308 then some (f.div (.powTen k))
    else if k ≤ 616 then some ((f.div (.powTen 308)).div (.powTen (k - 308)))
    else some ⟨0⟩
  else if k ≤ 308 then
    let product := f.mul (.powTen k)
    if product.isFinite then some product else none
  else if significand = 0 then some ⟨0⟩
  else none

/-- What a numeral is read as, if a double can hold it.  Digits left over in front of the point still
count as places. -/
def Numeral.number? (n : Numeral) : Option Number :=
  let (front, dropped) := gather 0 n.whole
  if n.fraction.isEmpty ∧ n.exponent.isNone ∧ dropped.isEmpty then
    if !n.negative then some (.integer front)
    else if front = 0 ∨ Nat.pow 2 63 < front then some (.double true (.ofNat front))
    else some (.integer (-front))
  else
    let (significand, left) := gather front n.fraction
    let places : Int := (n.fraction.length - left.length : Nat)
    let shift : Int :=
      match n.exponent with
      | none => 0
      | some (negative, digits) => if negative then -digitsValue digits else digitsValue digits
    (scaled? significand (dropped.length - places + shift)).map (.double n.negative)

/-- Reads a text that is one number. -/
def Number.ofText? (cs : List Char) : Option Number := do
  let (n, rest) ← Numeral.take? cs
  if rest.isEmpty then n.number? else none

/-! ## Writing -/

/-- The exponents of the leading digit for which a double is written without one. -/
def plainExponents : Int × Int := (-5, 15)

/-- The shortest digits of a double, with at least one digit behind the point when they are written
plainly; an exponent always shows its sign. -/
def doubleChars (size : Binary64) : List Char :=
  if size.units = 0 then ['0', '.', '0']
  else
    let (digits, exponent) := size.shortest
    let top := exponent + (digits.length - 1 : Nat)
    if plainExponents.1 ≤ top ∧ top ≤ plainExponents.2 then
      if 0 ≤ exponent then digits ++ List.replicate exponent.toNat '0' ++ ['.', '0']
      else withPoint digits exponent.natAbs
    else
      withPoint digits (digits.length - 1) ++
        'e' :: (if top < 0 then '-' else '+') :: naturalDigits top.natAbs

/-- A number as it is written. -/
def Number.toChars : Number → List Char
  | integer value => (if value < 0 then ['-'] else []) ++ naturalDigits value.natAbs
  | double negative size => (if negative then ['-'] else []) ++ doubleChars size

end FilterLang.Json
