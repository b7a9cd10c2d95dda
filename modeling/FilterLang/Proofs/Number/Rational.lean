import FilterLang.Number.Decimal
import Mathlib.Algebra.Order.Ring.Abs
import Mathlib.Tactic.FieldSimp
import Mathlib.Tactic.Linarith
import Mathlib.Tactic.NormNum
import Mathlib.Tactic.Positivity
import Mathlib.Tactic.Ring

/-!
# Decimals as rational numbers

A decimal stands for a rational number, and two decimals are the same number exactly if these are equal
(`Decimal.sameNumber_iff`).

When digits are read, the ones taken so far and the ones still to come denote the same number at every step
(`inReading_cons`).  Only the digit at which the reading stops can do harm, and it does none where a decimal
can stand for the number at all: in that case nothing but zeros is left.  So what is read is exact whenever
it can be, and otherwise off by half a unit of its last place at most (`Decimal.exists_ofText?_point`).
-/

namespace FilterLang

/-! ## Values -/

/-- The number that a decimal stands for. -/
def Decimal.number (d : Decimal) : ℚ :=
  d.coeff / 10 ^ d.scale

/-- The number that digits denote behind a point. -/
def fractionValue (digits : List Char) : ℚ :=
  digitsValue digits / 10 ^ digits.length

/-- The number that digits denote in front of and behind a point. -/
def pointedValue (whole fraction : List Char) : ℚ :=
  digitsValue whole + fractionValue fraction

theorem Decimal.sameNumber_iff {a b : Decimal} : a.sameNumber b = true ↔ a.number = b.number := by
  have ha : (10 : ℚ) ^ a.scale ≠ 0 := by positivity
  have hb : (10 : ℚ) ^ b.scale ≠ 0 := by positivity
  rw [sameNumber, beq_iff_eq, number, number, div_eq_div_iff ha hb, Nat.pow_eq, Nat.pow_eq]
  norm_cast

theorem Decimal.number_ofInt64 (i : Int64) : (ofInt64 i).number = i.toInt := by
  have hscale : (ofInt64 i).scale = 0 := rfl
  rw [number, coeff_ofInt64, hscale, pow_zero, div_one]

theorem Decimal.number_of_positive {d : Decimal} (h : d.negative = false) :
    d.number = d.size / 10 ^ d.scale := by
  rw [number, coeff, h]
  simp

theorem digitsValue_singleton_lt {c : Char} (h : c.isDigit = true) : digitsValue [c] < 10 := by
  have hvalue : digitsValue [c] = c.toNat - 48 := by simp [digitsValue, Nat.ofDigitChars]
  have hdigit : 48 ≤ c.toNat ∧ c.toNat ≤ 57 := by
    simpa [Char.isDigit, UInt32.le_iff_toNat_le] using h
  omega

@[simp] theorem fractionValue_nil : fractionValue [] = 0 := by
  simp [fractionValue]

theorem fractionValue_cons (c : Char) (rest : List Char) :
    fractionValue (c :: rest) = (digitsValue [c] + fractionValue rest) / 10 := by
  have happ : digitsValue (c :: rest) = Nat.pow 10 rest.length * digitsValue [c] + digitsValue rest :=
    digitsValue_append [c] rest
  rw [fractionValue, fractionValue, happ, Nat.pow_eq, List.length_cons, pow_succ]
  push_cast
  field_simp

theorem fractionValue_nonneg (digits : List Char) : 0 ≤ fractionValue digits := by
  unfold fractionValue
  positivity

theorem fractionValue_lt_one {digits : List Char} (h : ∀ c ∈ digits, c.isDigit = true) :
    fractionValue digits < 1 := by
  induction digits with
  | nil => simp
  | cons c rest ih =>
    obtain ⟨hc, hrest⟩ := List.forall_mem_cons.1 h
    have hdigit : digitsValue [c] ≤ 9 := Nat.le_of_lt_succ (digitsValue_singleton_lt hc)
    have hcast : (digitsValue [c] : ℚ) ≤ 9 := by exact_mod_cast hdigit
    have hbelow := ih hrest
    rw [fractionValue_cons]
    linarith

/-- Without the point the digits are one number. -/
theorem pointedValue_eq (whole fraction : List Char) :
    pointedValue whole fraction = digitsValue (whole ++ fraction) / 10 ^ fraction.length := by
  rw [pointedValue, fractionValue, digitsValue_append, Nat.pow_eq]
  push_cast
  field_simp

/-! ## The number in reading -/

/-- The number of which the digits so far make the size, with the others still to come. -/
def inReading (size scale : Nat) (rest : List Char) : ℚ :=
  (size + fractionValue rest) / 10 ^ scale

/-- Taking a digit does not change the number. -/
theorem inReading_cons (size scale : Nat) (c : Char) (rest : List Char) :
    inReading (10 * size + digitsValue [c]) (scale + 1) rest = inReading size scale (c :: rest) := by
  rw [inReading, inReading, fractionValue_cons, pow_succ]
  push_cast
  field_simp
  ring

namespace Decimal

/-- What reading may make of a number: the number itself if a decimal can stand for it, and in any case one
that is at most half a unit of the last place away. -/
structure Rounds (d : Decimal) (x : ℚ) : Prop where
  exact : (∃ e : Decimal, e.number = x) → d.number = x
  near : 2 * |d.number - x| * 10 ^ d.scale ≤ 1

theorem rounds_self (d : Decimal) : d.Rounds d.number where
  exact _ := rfl
  near := by simp

/-! ## Where no decimal stands for the number -/

section Places

variable {e : Decimal} {x : ℚ} {scale : Nat}

theorem coeff_mul_eq (h : e.number = x / 10 ^ scale) : (e.coeff : ℚ) * 10 ^ scale = x * 10 ^ e.scale := by
  rw [number, div_eq_div_iff (by positivity) (by positivity)] at h
  exact h

theorem coeff_lt (e : Decimal) : (e.coeff : ℚ) < sizeLimit := by
  have hcoeff : e.coeff < sizeLimit := by
    have hlimit := e.size_lt
    unfold coeff sizeLimit
    split <;> omega
  exact_mod_cast hcoeff

/-- A decimal with a place more counts its units by tens. -/
theorem ten_mul_le_coeff (hx : 0 ≤ x) (hscale : scale < e.scale) (h : e.number = x / 10 ^ scale) :
    10 * x ≤ e.coeff := by
  obtain ⟨k, hk⟩ := Nat.exists_eq_add_of_lt hscale
  have hcoeff : (e.coeff : ℚ) = x * 10 ^ (k + 1) := by
    have hcross := coeff_mul_eq h
    rw [hk, add_assoc, pow_add] at hcross
    have hten : (10 : ℚ) ^ scale ≠ 0 := by positivity
    exact mul_right_cancel₀ hten (by rw [hcross]; ring)
  have hone : (1 : ℚ) ≤ 10 ^ k := one_le_pow₀ (by norm_num)
  calc 10 * x = x * 10 * 1 := by ring
    _ ≤ x * 10 * 10 ^ k := mul_le_mul_of_nonneg_left hone (by positivity)
    _ = e.coeff := by rw [hcoeff]; ring

/-- A decimal without further places is a whole number of units. -/
theorem exists_whole_of_scale_le (hscale : e.scale ≤ scale) (h : e.number = x / 10 ^ scale) :
    ∃ n : ℤ, x = n := by
  obtain ⟨k, hk⟩ := Nat.exists_eq_add_of_le hscale
  refine ⟨e.coeff * 10 ^ k, ?_⟩
  have hcross := coeff_mul_eq h
  rw [hk, pow_add] at hcross
  have hten : (10 : ℚ) ^ e.scale ≠ 0 := by positivity
  push_cast
  exact mul_right_cancel₀ hten (by rw [← hcross]; ring)

end Places

/-- Where something is left behind the last digit for which there is room, no decimal stands for the
number. -/
theorem number_ne_inReading {size scale : Nat} {c : Char} {rest : List Char}
    (hdigits : ∀ d ∈ c :: rest, d.isDigit = true)
    (hfull : ¬(scale < maxScale ∧ 10 * size + digitsValue [c] < sizeLimit))
    (hleft : fractionValue (c :: rest) ≠ 0) (e : Decimal) :
    e.number ≠ inReading size scale (c :: rest) := by
  intro he
  have hpos : 0 < fractionValue (c :: rest) := lt_of_le_of_ne (fractionValue_nonneg _) hleft.symm
  have hlt := fractionValue_lt_one hdigits
  rw [inReading] at he
  rcases Nat.lt_or_ge scale e.scale with hfine | hcoarse
  · -- the decimal has a place for the next digit, so its size is past the limit
    have hlong : sizeLimit ≤ 10 * size + digitsValue [c] :=
      Nat.not_lt.1 fun h => hfull ⟨Nat.lt_of_lt_of_le hfine e.scale_le, h⟩
    have hcast : (sizeLimit : ℚ) ≤ 10 * size + digitsValue [c] := by exact_mod_cast hlong
    have hnext : (digitsValue [c] : ℚ) ≤ 10 * fractionValue (c :: rest) := by
      have hrest := fractionValue_nonneg rest
      rw [fractionValue_cons]
      linarith
    have hgrown := ten_mul_le_coeff (by positivity) hfine he
    have hlimit := coeff_lt e
    linarith
  · -- the decimal has no place behind these digits, but something is left there
    obtain ⟨n, hn⟩ := exists_whole_of_scale_le hcoarse he
    have hlow : (size : ℚ) < n := by linarith
    have hhigh : (n : ℚ) < size + 1 := by linarith
    have hlow' : (size : ℤ) < n := by exact_mod_cast hlow
    have hhigh' : n < (size : ℤ) + 1 := by exact_mod_cast hhigh
    omega

/-! ## Reading a fraction -/

theorem exists_positive {size scale : Nat} (hsize : size < sizeLimit) (hscale : scale ≤ maxScale) :
    ∃ d : Decimal, d.negative = false ∧ d.size = size ∧ d.scale = scale :=
  ⟨⟨false, size, scale, hsize, hscale⟩, rfl, rfl, rfl⟩

/-- A size within half a unit of a number rounds it, if it is exact wherever a decimal can be. -/
theorem exists_rounds {size scale : Nat} {y : ℚ} (hsize : size < sizeLimit) (hscale : scale ≤ maxScale)
    (hnear : 2 * |size - y| ≤ 1) (hexact : ∀ e : Decimal, e.number = y / 10 ^ scale → (size : ℚ) = y) :
    ∃ d : Decimal, d.negative = false ∧ d.size = size ∧ d.scale = scale ∧ d.Rounds (y / 10 ^ scale) := by
  obtain ⟨d, hsign, rfl, rfl⟩ := exists_positive hsize hscale
  have hnumber := number_of_positive hsign
  have hten : (0 : ℚ) < 10 ^ d.scale := by positivity
  refine ⟨d, hsign, rfl, rfl, ?_⟩
  constructor
  · rintro ⟨e, he⟩
    rw [hnumber, hexact e he]
  · rw [hnumber, ← sub_div, abs_div, abs_of_pos hten, mul_div_assoc', div_mul_cancel₀ _ hten.ne']
    exact hnear

/-- The digit for which there is no room decides how the number is rounded. -/
theorem exists_roundAt {size scale : Nat} {c : Char} {rest : List Char}
    (hdigits : ∀ d ∈ c :: rest, d.isDigit = true) (hsize : size < sizeLimit) (hscale : scale ≤ maxScale)
    (hfull : ¬(scale < maxScale ∧ 10 * size + digitsValue [c] < sizeLimit))
    (hroom : 0 < scale ∨ size + 1 < sizeLimit) :
    ∃ d : Decimal, d.negative = false ∧ roundAt size scale c = some (d.size, d.scale) ∧
      d.Rounds (inReading size scale (c :: rest)) := by
  have hlow := fractionValue_nonneg (c :: rest)
  have hhigh := fractionValue_lt_one hdigits
  have hcons := fractionValue_cons c rest
  have hrestLow := fractionValue_nonneg rest
  have hrestHigh := fractionValue_lt_one (List.forall_mem_cons.1 hdigits).2
  have hzero : ∀ e : Decimal, e.number = inReading size scale (c :: rest) → fractionValue (c :: rest) = 0 := by
    intro e he
    by_contra hleft
    exact number_ne_inReading hdigits hfull hleft e he
  unfold roundAt
  by_cases hdown : digitsValue [c] < 5
  · -- less than a half is dropped
    have hdigit : (digitsValue [c] : ℚ) ≤ 4 := by exact_mod_cast Nat.le_of_lt_succ hdown
    have hnear : 2 * |(size : ℚ) - (size + fractionValue (c :: rest))| ≤ 1 := by
      rw [sub_add_cancel_left, abs_neg, abs_of_nonneg hlow]
      linarith
    obtain ⟨d, hsign, hdsize, hdscale, hrounds⟩ := exists_rounds hsize hscale hnear (by
      intro e he
      rw [hzero e he, add_zero])
    refine ⟨d, hsign, ?_, hrounds⟩
    rw [if_pos hdown, hdsize, hdscale]
  · -- a half or more is left, so no decimal stands for the number
    have hdigit : (5 : ℚ) ≤ digitsValue [c] := by exact_mod_cast Nat.not_lt.1 hdown
    have hnone : ∀ e : Decimal, e.number ≠ inReading size scale (c :: rest) := by
      intro e he
      have hnothing := hzero e he
      linarith
    rw [if_neg hdown]
    by_cases hup : size + 1 < sizeLimit
    · have hnear : 2 * |((size + 1 : Nat) : ℚ) - (size + fractionValue (c :: rest))| ≤ 1 := by
        rw [Nat.cast_add_one, add_sub_add_left_eq_sub, abs_of_nonneg (by linarith)]
        linarith
      obtain ⟨d, hsign, hdsize, hdscale, hrounds⟩ :=
        exists_rounds hup hscale hnear fun e he => absurd he (hnone e)
      refine ⟨d, hsign, ?_, hrounds⟩
      rw [if_pos hup, hdsize, hdscale]
    · -- the size cannot be raised, and five units more are ten units of the place in front
      obtain ⟨place, rfl⟩ := Nat.exists_eq_add_one_of_ne_zero (hroom.resolve_right hup).ne'
      have hmax : 10 * ((size + 5) / 10) = size + 5 := by
        have hlimit : sizeLimit = 79228162514264337593543950336 := rfl
        omega
      have hcast : (10 * ((size + 5) / 10 : Nat) : ℚ) = size + 5 := by exact_mod_cast hmax
      have hplace : inReading size (place + 1) (c :: rest) =
          (size + fractionValue (c :: rest)) / 10 / 10 ^ place := by
        rw [inReading, pow_succ, div_div, mul_comm]
      rw [hplace] at hnone ⊢
      have hnear : 2 * |((size + 5) / 10 : Nat) - (size + fractionValue (c :: rest)) / 10| ≤ 1 := by
        rw [abs_of_nonneg (by linarith)]
        linarith
      obtain ⟨d, hsign, hdsize, hdscale, hrounds⟩ :=
        exists_rounds (by omega) (by omega) hnear fun e he => absurd he (hnone e)
      refine ⟨d, hsign, ?_, hrounds⟩
      rw [if_neg hup, if_neg (Nat.succ_ne_zero place), hdsize, hdscale]
      rfl

/-- Reading digits behind a point rounds the number that they denote. -/
theorem exists_takeFraction {size scale : Nat} {digits : List Char}
    (hdigits : ∀ c ∈ digits, c.isDigit = true) (hsize : size < sizeLimit) (hscale : scale ≤ maxScale)
    (hroom : 0 < scale ∨ size + 1 < sizeLimit) :
    ∃ d : Decimal, d.negative = false ∧ takeFraction size scale digits = some (d.size, d.scale) ∧
      d.Rounds (inReading size scale digits) := by
  induction digits generalizing size scale with
  | nil =>
    obtain ⟨d, hsign, rfl, rfl⟩ := exists_positive hsize hscale
    refine ⟨d, hsign, rfl, ?_⟩
    rw [inReading, fractionValue_nil, add_zero, ← number_of_positive hsign]
    exact rounds_self d
  | cons c rest ih =>
    obtain ⟨hc, hrest⟩ := List.forall_mem_cons.1 hdigits
    simp only [takeFraction, hc, if_true]
    by_cases hfits : scale < maxScale ∧ 10 * size + digitsValue [c] < sizeLimit
    · rw [if_pos hfits, ← inReading_cons]
      exact ih hrest hfits.2 hfits.1 (.inl (Nat.succ_pos scale))
    · have hall : rest.all isDigitOrSeparator = true := by
        rw [List.all_eq_true]
        intro d hd
        simp [isDigitOrSeparator, hrest d hd]
      rw [if_neg hfits, if_pos hall]
      exact exists_roundAt hdigits hsize hscale hfits hroom

/-- Digits on both sides of a point are always read, if the whole part leaves room to be raised. -/
theorem exists_ofText?_point {whole fraction : List Char} (hwhole : isDigitRun whole = true)
    (hfraction : isDigitRun fraction = true) (hfits : digitsValue whole + 1 < sizeLimit) :
    ∃ d, ofText? (whole ++ '.' :: fraction) = some d ∧ d.Rounds (pointedValue whole fraction) := by
  have hdigits : ∀ c ∈ fraction, c.isDigit = true := fun _ hc => isDigit_of_mem_run hfraction hc
  have hkept : whole.filter Char.isDigit = whole :=
    List.filter_eq_self.2 fun _ hc => isDigit_of_mem_run hwhole hc
  have hless : digitsValue whole < sizeLimit := by omega
  obtain ⟨d, hsign, htaken, hrounds⟩ :=
    exists_takeFraction hdigits hless (Nat.zero_le maxScale) (.inr hfits)
  refine ⟨d, ?_, ?_⟩
  · have hmade : make? false d.size d.scale = some d := make?_eq_some.2 ⟨hsign, rfl, rfl⟩
    rw [ofText?_of_point hwhole hfraction, ofDigits?, hkept, if_pos hless, htaken]
    exact hmade
  · rw [inReading, pow_zero, div_one] at hrounds
    exact hrounds

end Decimal

end FilterLang
