import FilterLang.Json.Number
import FilterLang.Number.Decimal
import FilterLang.Proofs.Number.Shortest

/-!
# Printed doubles

A decimal of at most fifteen digits and at most 22 places comes through JSON as it is: its digits are
gathered without loss and divided by a power of ten that is a double, so the double read is the one nearest
to it (`number?_of_fits`); and what that double is printed as, with or without an exponent, is read as a
decimal for the same number (`ofText?_doubleChars_nearest`).
-/

namespace FilterLang

/-! ## Digits with zeros behind them, or a point among them -/

theorem naturalDigits_mul_pow {n : Nat} (hn : 0 < n) (j : Nat) :
    naturalDigits (n * 10 ^ j) = naturalDigits n ++ List.replicate j '0' := by
  induction j with
  | zero => simp
  | succ j ih =>
    have hpos : 0 < n * 10 ^ j := by positivity
    have hsucc : n * 10 ^ (j + 1) = 10 * (n * 10 ^ j) + 0 := by ring
    rw [hsucc, ← naturalDigits_append hpos (by decide), ih, List.replicate_succ', List.append_assoc]
    rfl

theorem withPoint_append {front back : List Char} (hfront : front ≠ []) (hback : back ≠ []) :
    withPoint (front ++ back) back.length = front ++ '.' :: back := by
  have hplaces : back.length ≠ 0 := mt List.length_eq_zero_iff.1 hback
  have hpad : back.length + 1 - (front.length + back.length) = 0 := by
    have := List.length_pos_iff.2 hfront
    omega
  simp [withPoint, hplaces, hpad]

theorem exponent?_minus_naturalDigits (k : Nat) :
    Decimal.exponent? ('-' :: naturalDigits k) = some (-(k : Int)) := by
  have hplus : (naturalDigits k).head? ≠ some '+' := by
    intro hhead
    exact absurd (isDigit_of_mem_naturalDigits '+' (List.mem_of_head? hhead)) (by decide)
  simp only [Decimal.exponent?, Decimal.exponentSize?, if_neg hplus, if_pos (isDigitRun_naturalDigits k),
    digitsValue_naturalDigits]
  rfl

namespace Json

open Binary64

/-! ## Writing and reading again -/

theorem doubleChars_of_shortest {x : Binary64} {digits : List Char} {e : Int} (hx : x.units ≠ 0)
    (hshort : x.shortest = (digits, e)) :
    doubleChars x =
      if -5 ≤ e + (digits.length - 1 : Nat) ∧ e + (digits.length - 1 : Nat) ≤ 15 then
        if 0 ≤ e then digits ++ List.replicate e.toNat '0' ++ ['.', '0'] else withPoint digits e.natAbs
      else
        withPoint digits (digits.length - 1) ++
          'e' :: (if e + (digits.length - 1 : Nat) < 0 then '-' else '+') ::
            naturalDigits (e + (digits.length - 1 : Nat)).natAbs := by
  rw [doubleChars, if_neg hx, hshort]
  rfl

/-- A double that is a whole number is written plainly, with one place. -/
theorem exists_doubleChars_whole {x : Binary64} {n j : Nat} (hx : x.units ≠ 0)
    (hshort : x.shortest = (naturalDigits n, (j : Int))) (hn : 0 < n) (hsize : n * 10 ^ j < 10 ^ 15) :
    ∃ d : Decimal, doubleChars x = d.toChars ∧ d.negative = false ∧ d.size = n * 10 ^ (j + 1) ∧
      d.scale = 1 := by
  have hpow : n * 10 ^ (j + 1) = n * 10 ^ j * 10 := by ring
  refine ⟨⟨false, n * 10 ^ (j + 1), 1, ?_, by decide⟩, ?_, rfl, rfl, rfl⟩
  · rw [Nat.pow_eq]
    omega
  · have hdigits := naturalDigits_mul_pow hn j
    have hlen : (naturalDigits n).length + j ≤ 15 := by
      have := (length_naturalDigits_le_iff (by decide)).2 hsize
      simpa [hdigits] using this
    have hpos := List.length_pos_iff.2 (naturalDigits_ne_nil n)
    have hplain : -5 ≤ (j : Int) + ((naturalDigits n).length - 1 : Nat) ∧
        (j : Int) + ((naturalDigits n).length - 1 : Nat) ≤ 15 := by omega
    have htext : doubleChars x = naturalDigits n ++ List.replicate j '0' ++ ['.', '0'] := by
      rw [doubleChars_of_shortest hx hshort, if_pos hplain, if_pos (Int.natCast_nonneg j),
        Int.toNat_natCast]
    have hpoint : withPoint (naturalDigits (n * 10 ^ (j + 1))) 1 =
        naturalDigits n ++ List.replicate j '0' ++ ['.', '0'] := by
      rw [naturalDigits_mul_pow hn, List.replicate_succ', ← List.append_assoc]
      have hne : naturalDigits n ++ List.replicate j '0' ≠ [] := by
        simp [naturalDigits_ne_nil]
      exact withPoint_append hne (List.cons_ne_nil '0' [])
    rw [htext, ← hpoint]
    rfl

/-- A double with places is written with a point among its digits, and with an exponent if it is small. -/
theorem doubleChars_of_places {x : Binary64} {n j l : Nat} (hx : x.units ≠ 0)
    (hshort : x.shortest = (naturalDigits n, -(j : Int))) (hj : 0 < j)
    (hl : (naturalDigits n).length = l + 1) (hsize : l < 15) :
    doubleChars x =
      if -5 ≤ -(j : Int) + l then withPoint (naturalDigits n) j
      else withPoint (naturalDigits n) l ++ 'e' :: '-' :: naturalDigits (j - l) := by
  have hneg : ¬0 ≤ -(j : Int) := by omega
  have hle : -(j : Int) + l ≤ 15 := by omega
  rw [doubleChars_of_shortest hx hshort, hl, Nat.add_sub_cancel]
  by_cases hplain : -5 ≤ -(j : Int) + l
  · rw [if_pos (And.intro hplain hle), if_neg hneg, if_pos hplain, Int.natAbs_neg, Int.natAbs_natCast]
  · have hsmall : -(j : Int) + l < 0 := by omega
    have hnatAbs : (-(j : Int) + l).natAbs = j - l := by omega
    rw [if_neg fun h => hplain h.1, if_neg hplain, if_pos hsmall, hnatAbs]

/-- Read again, the exponent only moves the point. -/
theorem exists_ofText?_doubleChars {x : Binary64} {n j : Nat} (hx : x.units ≠ 0)
    (hshort : x.shortest = (naturalDigits n, -(j : Int))) (hsize : n < 10 ^ 15) (hj : 0 < j)
    (hscale : j ≤ 28) :
    ∃ d : Decimal, Decimal.ofText? (doubleChars x) = some d ∧ d.negative = false ∧ d.size = n ∧
      d.scale = j := by
  have hlt : n < Nat.pow 2 96 := by
    rw [Nat.pow_eq]
    omega
  obtain ⟨l, hl⟩ : ∃ l, (naturalDigits n).length = l + 1 :=
    Nat.exists_eq_add_one.2 (List.length_pos_iff.2 (naturalDigits_ne_nil n))
  have hlen : l < 15 := by
    have := (length_naturalDigits_le_iff (by decide)).2 hsize
    omega
  refine ⟨⟨false, n, j, hlt, hscale⟩, ?_, rfl, rfl, rfl⟩
  rw [doubleChars_of_places hx hshort hj hl hlen]
  split
  · exact Decimal.ofText?_toChars ⟨false, n, j, hlt, hscale⟩
  · -- the base has the places of its digits, and the exponent gives it the others
    rename_i hsmall
    have hbase := Decimal.ofText?_toChars_append ⟨false, n, l, hlt, by omega⟩
      (rfl : Decimal.isExponentMark 'e' = true) ('-' :: naturalDigits (j - l))
    rw [exponent?_minus_naturalDigits] at hbase
    refine Eq.trans hbase ?_
    have hnatAbs : (-((j - l : Nat) : Int)).natAbs = j - l := by omega
    have hsum : l + (j - l) = j := by omega
    simp only [Option.bind_some, Decimal.shift?, Decimal.maxScale, hnatAbs]
    rw [if_neg (by omega), if_pos (by omega), if_pos (by simp only [Decimal.dropZeroSign]; omega)]
    exact Decimal.make?_eq_some.2 ⟨rfl, rfl, hsum.symm⟩

theorem two_pow_mul_ten_pow_le {k : Nat} (hk : k ≤ 22) : 2 ^ 53 * 10 ^ k ≤ one := by
  have hpow : 10 ^ k ≤ 10 ^ 22 := Nat.pow_le_pow_right (by decide) hk
  calc 2 ^ 53 * 10 ^ k ≤ 2 ^ 53 * 10 ^ 22 := Nat.mul_le_mul_left _ hpow
    _ ≤ 2 ^ 127 := by decide
    _ ≤ one := two_pow_le_one (by decide)

/-- What the double nearest to a short decimal is printed as is read as that decimal. -/
theorem ofText?_doubleChars_nearest {m k : Nat} (hm : m < 10 ^ 15) (hk : k ≤ 22) :
    ∃ d : Decimal, Decimal.ofText? (doubleChars (nearest m (10 ^ k))) = some d ∧
      d.negative = false ∧ d.size * 10 ^ k = m * 10 ^ d.scale := by
  rcases Nat.eq_zero_or_pos m with rfl | hpos
  · have hzero : nearest 0 (10 ^ k) = ⟨0⟩ := by
      simp [nearest, halfEven]
    rw [hzero]
    exact ⟨⟨false, 0, 1, by decide, by decide⟩, by decide, rfl, by simp⟩
  · have hnormal := two_pow_mul_ten_pow_le hk
    have hden : 0 < 10 ^ k := by positivity
    have hx : (nearest m (10 ^ k)).units ≠ 0 := by
      have hfull := (units_nearest hpos hden hnormal).1
      omega
    obtain ⟨n, e, hshort, hn, hwrites⟩ := shortest_nearest hpos hm hnormal
    have hnpos : 0 < n := by omega
    rcases Int.lt_or_le e 0 with hneg | hnonneg
    · obtain ⟨j, rfl, heq, hjk, hle⟩ := hwrites.exists_places hn hneg
      obtain ⟨d, hd, hsign, hsize, hscale⟩ :=
        exists_ofText?_doubleChars hx hshort (by omega) (by omega) (by omega)
      exact ⟨d, hd, hsign, by rw [hsize, hscale, heq]⟩
    · obtain ⟨j, rfl, heq⟩ := hwrites.exists_zeros hnonneg
      have hle : n * 10 ^ j ≤ m := by
        rw [← heq]
        exact Nat.le_mul_of_pos_right _ (by positivity)
      obtain ⟨d, htext, hsign, hsize, hscale⟩ := exists_doubleChars_whole hx hshort hnpos (by omega)
      refine ⟨d, ?_, hsign, ?_⟩
      · rw [htext, Decimal.ofText?_toChars, Decimal.dropZeroSign_of_positive hsign]
      · rw [hsize, hscale, ← heq]
        ring

/-! ## Reading -/

/-- Digits for which there is room are all gathered. -/
theorem gather_of_fits {significand : Nat} {digits : List Char}
    (h : 10 ^ digits.length * significand + digitsValue digits < 2 ^ 64) :
    gather significand digits = (10 ^ digits.length * significand + digitsValue digits, []) := by
  induction digits generalizing significand with
  | nil => simp [gather]
  | cons d rest ih =>
    have hval : 10 ^ (d :: rest).length * significand + digitsValue (d :: rest) =
        10 ^ rest.length * (10 * significand + digitsValue [d]) + digitsValue rest := by
      have happ : digitsValue (d :: rest) = Nat.pow 10 rest.length * digitsValue [d] + digitsValue rest :=
        digitsValue_append [d] rest
      rw [happ, Nat.pow_eq, List.length_cons]
      ring
    rw [hval] at h
    have hnext : 10 * significand + digitsValue [d] < Nat.pow 2 64 := by
      refine Nat.lt_of_le_of_lt ?_ h
      exact Nat.le_add_right_of_le (Nat.le_mul_of_pos_left _ (by positivity))
    rw [gather, if_pos hnext, ih h, hval]

/-- A short decimal is read as the double nearest to it. -/
theorem number?_of_fits {whole fraction : List Char} (hne : fraction ≠ [])
    (hsize : digitsValue (whole ++ fraction) < 10 ^ 15) (hplaces : fraction.length ≤ 22) :
    Numeral.number? ⟨false, whole, fraction, none⟩ =
      some (.double false (nearest (digitsValue (whole ++ fraction)) (10 ^ fraction.length))) := by
  have happ := digitsValue_append whole fraction
  rw [Nat.pow_eq] at happ
  have hwhole : digitsValue whole ≤ digitsValue (whole ++ fraction) := by
    rw [happ]
    exact Nat.le_add_right_of_le (Nat.le_mul_of_pos_left _ (by positivity))
  have hfront : gather 0 whole = (digitsValue whole, []) := by
    have hfits : 10 ^ whole.length * 0 + digitsValue whole < 2 ^ 64 := by omega
    simpa using gather_of_fits hfits
  have hback : gather (digitsValue whole) fraction = (digitsValue (whole ++ fraction), []) := by
    rw [happ]
    exact gather_of_fits (by omega)
  have hscaled : scaled? (digitsValue (whole ++ fraction)) (-(fraction.length : Int)) =
      some (nearest (digitsValue (whole ++ fraction)) (10 ^ fraction.length)) := by
    have hpos := List.length_pos_iff.2 hne
    have hneg : -(fraction.length : Int) < 0 := by omega
    have hbits : digitsValue (whole ++ fraction) < 2 ^ 53 := by omega
    rw [scaled?, if_pos hneg, Int.natAbs_neg, Int.natAbs_natCast, if_pos (by omega),
      ofNat_div_powTen hbits hplaces]
  simp [Numeral.number?, hfront, hback, hne, hscaled]

end Json

end FilterLang
