import FilterLang.Number.Binary64
import Mathlib.Tactic.Ring

/-!
# Rounding to doubles

What `Binary64.nearest` gives for a quotient: a number of steps `2 ^ j`, of at most 53 bits and at most half
a step away from the quotient (`exists_isRounded`).  A natural of at most 53 bits, zeros at the end apart, is
not rounded at all; so the quotient of such a number and a power of ten up to `10 ^ 22` is rounded only
once, although both are made doubles before they are divided (`ofNat_div_powTen`).
-/

namespace FilterLang

/-! ## Rounded quotients -/

/-- A common factor does not count. -/
theorem halfEven_mul_mul (num den : Nat) {c : Nat} (hc : 0 < c) :
    halfEven (num * c) (den * c) = halfEven num den := by
  have hquot : num * c / (den * c) = num / den := Nat.mul_div_mul_right num den hc
  have hrem : 2 * (num * c % (den * c)) = 2 * (num % den) * c := by
    rw [Nat.mul_mod_mul_right, Nat.mul_assoc]
  unfold halfEven
  dsimp only
  rw [hquot, hrem]
  simp only [Nat.mul_lt_mul_right hc]

/-- A half never goes to an odd number. -/
theorem halfEven_near_of_odd {num den : Nat} (hden : 0 < den) (hodd : halfEven num den % 2 = 1) :
    2 * (den * halfEven num den) < 2 * num + den ∧ 2 * num < 2 * (den * halfEven num den) + den := by
  have hdiv := Nat.div_add_mod num den
  have hmod := Nat.mod_lt num hden
  have hsucc : den * (num / den + 1) = den * (num / den) + den := Nat.mul_succ _ _
  unfold halfEven at hodd ⊢
  dsimp only at hodd ⊢
  split
  · omega
  · split
    · omega
    · -- at a half the sum is even
      rename_i hle hge
      rw [if_neg hle, if_neg hge] at hodd
      omega

namespace Binary64

theorem one_eq : one = 2 ^ 1074 := by
  unfold one
  generalize 1074 = k
  exact Nat.pow_eq

theorem one_pos : 0 < one := by
  unfold one
  generalize 1074 = k
  exact Nat.two_pow_pos k

theorem two_pow_le_one {k : Nat} (h : k ≤ 1074) : 2 ^ k ≤ one := by
  unfold one
  generalize 1074 = t at *
  rw [Nat.pow_eq]
  exact Nat.pow_le_pow_right (by decide) h

/-! ## Steps -/

/-- The step is a power of two of which the number has at least `2 ^ 52` and less than `2 ^ 53`; but there is
none below one unit. -/
theorem exists_spacing (u : Nat) :
    ∃ j, spacing u = 2 ^ j ∧ u < 2 ^ 53 * 2 ^ j ∧ (j = 0 ∨ 2 ^ 52 * 2 ^ j ≤ u) := by
  refine ⟨u.log2 - 52, Nat.pow_eq, ?_, ?_⟩
  · rw [← Nat.pow_add]
    refine Nat.lt_of_lt_of_le Nat.lt_log2_self ?_
    exact Nat.pow_le_pow_right (by decide) (by omega)
  · by_cases hsmall : u.log2 ≤ 52
    · exact .inl (by omega)
    · right
      have hne : u ≠ 0 := by
        rintro rfl
        exact hsmall (by simp)
      have hlog : 52 + (u.log2 - 52) = u.log2 := by omega
      rw [← Nat.pow_add, hlog]
      exact Nat.log2_self_le hne

theorem spacing_mul_two_pow {q : Nat} (j : Nat) (hlow : 2 ^ 52 ≤ q) (hhigh : q < 2 ^ 53) :
    spacing (q * 2 ^ j) = 2 ^ j := by
  have hpos : 0 < 2 ^ j := Nat.two_pow_pos j
  have hne : q * 2 ^ j ≠ 0 := Nat.mul_ne_zero (by omega) (by omega)
  have hlog : (q * 2 ^ j).log2 = 52 + j := by
    rw [Nat.log2_eq_iff hne, Nat.pow_add, Nat.add_right_comm, Nat.pow_add]
    exact ⟨Nat.mul_le_mul_right _ hlow, Nat.mul_lt_mul_of_pos_right hhigh hpos⟩
  rw [spacing, hlog, Nat.add_sub_cancel_left, Nat.pow_eq]

theorem spacing_of_lt {u : Nat} (h : u < 2 ^ 53) : spacing u = 1 := by
  have hlog : u.log2 - 52 = 0 := by
    by_cases hzero : u = 0
    · subst hzero
      simp
    · have := (Nat.log2_lt hzero).2 h
      omega
  rw [spacing, hlog, Nat.pow_eq, Nat.pow_zero]

/-! ## The nearest double -/

/-- Steps of `2 ^ j` units for a quotient: at most 53 bits of them and, unless the steps are as small as they
can be, no fewer; and at most half a step off, or less than that for an odd number of steps. -/
structure IsRounded (num den j q : Nat) : Prop where
  le : q ≤ 2 ^ 53
  full : j = 0 ∨ 2 ^ 52 * (den * 2 ^ j) ≤ num * one
  low : 2 * (den * 2 ^ j * q) ≤ 2 * (num * one) + den * 2 ^ j
  high : 2 * (num * one) ≤ 2 * (den * 2 ^ j * q) + den * 2 ^ j
  odd : q % 2 = 1 → 2 * (den * 2 ^ j * q) < 2 * (num * one) + den * 2 ^ j ∧
    2 * (num * one) < 2 * (den * 2 ^ j * q) + den * 2 ^ j

theorem exists_isRounded (num : Nat) {den : Nat} (hden : 0 < den) :
    ∃ j q, (nearest num den).units = q * 2 ^ j ∧ IsRounded num den j q := by
  obtain ⟨j, hstep, hupper, hlower⟩ := exists_spacing (num * one / den)
  have hpos : 0 < den * 2 ^ j := Nat.mul_pos hden (Nat.two_pow_pos j)
  have hnear := halfEven_near (num * one) hpos
  refine ⟨j, halfEven (num * one) (den * 2 ^ j), ?_, ?_⟩
  · simp only [nearest, hstep]
  · rw [Nat.div_lt_iff_lt_mul hden] at hupper
    have hfull : j = 0 ∨ 2 ^ 52 * (den * 2 ^ j) ≤ num * one := by
      refine hlower.imp_right ?_
      intro h
      rw [Nat.le_div_iff_mul_le hden] at h
      calc 2 ^ 52 * (den * 2 ^ j) = 2 ^ 52 * 2 ^ j * den := by ring
        _ ≤ num * one := h
    refine ⟨?_, hfull, hnear.1, hnear.2, halfEven_near_of_odd hpos⟩
    -- less than half a step above `2 ^ 53` steps
    have hbound : 2 * (den * 2 ^ j * halfEven (num * one) (den * 2 ^ j)) <
        2 * (den * 2 ^ j * 2 ^ 53) + 2 * (den * 2 ^ j) := by
      have hexact : num * one < den * 2 ^ j * 2 ^ 53 := by
        calc num * one < 2 ^ 53 * 2 ^ j * den := hupper
          _ = den * 2 ^ j * 2 ^ 53 := by ring
      omega
    have hcancel : den * 2 ^ j * halfEven (num * one) (den * 2 ^ j) < den * 2 ^ j * (2 ^ 53 + 1) := by
      rw [Nat.mul_add, Nat.mul_one]
      omega
    exact Nat.lt_succ_iff.1 (Nat.lt_of_mul_lt_mul_left hcancel)

/-- The significand has all its bits, unless the steps are as small as they can be. -/
theorem IsRounded.significand {num den j q : Nat} (h : IsRounded num den j q) (hden : 0 < den) :
    j = 0 ∨ 2 ^ 52 ≤ q := by
  refine h.full.imp_right ?_
  intro hfull
  have hpos : 0 < den * 2 ^ j := Nat.mul_pos hden (Nat.two_pow_pos j)
  have hhigh := h.high
  have hcancel : den * 2 ^ j * 2 ^ 52 < den * 2 ^ j * (q + 1) := by
    rw [Nat.mul_comm _ (2 ^ 52), Nat.mul_add, Nat.mul_one]
    omega
  exact Nat.lt_succ_iff.1 (Nat.lt_of_mul_lt_mul_left hcancel)

/-- Rounded up to `2 ^ 53` steps the next step is larger, and there are `2 ^ 52` of those. -/
theorem IsRounded.spacing_eq {num den j q : Nat} (h : IsRounded num den j q) (hden : 0 < den) :
    (q < 2 ^ 53 ∧ spacing (q * 2 ^ j) = 2 ^ j) ∨
      (q = 2 ^ 53 ∧ spacing (q * 2 ^ j) = 2 * 2 ^ j) := by
  rcases Nat.lt_or_eq_of_le h.le with hlt | heq
  · left
    refine ⟨hlt, ?_⟩
    rcases h.significand hden with rfl | hlow
    · rw [Nat.pow_zero, Nat.mul_one]
      exact spacing_of_lt hlt
    · exact spacing_mul_two_pow j hlow hlt
  · right
    refine ⟨heq, ?_⟩
    have hdouble : q * 2 ^ j = 2 ^ 52 * 2 ^ (j + 1) := by
      rw [heq]
      ring
    rw [hdouble, spacing_mul_two_pow (j + 1) (Nat.le_refl _) (by decide)]
    ring

/-- A common factor does not count. -/
theorem nearest_mul_mul (num : Nat) {den c : Nat} (hc : 0 < c) :
    nearest (num * c) (den * c) = nearest num den := by
  have hquot : num * one * c / (den * c) = num * one / den := Nat.mul_div_mul_right _ _ hc
  simp only [nearest, Nat.mul_right_comm num c, hquot, Nat.mul_right_comm den c]
  rw [halfEven_mul_mul _ _ hc]

/-! ## Doubles that are not rounded -/

/-- A number of at most 53 bits, zeros at the end apart, is a double. -/
theorem nearest_of_fits {n a j : Nat} (h : n * one = a * 2 ^ j) (ha : a < 2 ^ 53) :
    nearest n 1 = ⟨n * one⟩ := by
  obtain ⟨i, hstep, -, hlower⟩ := exists_spacing (n * one)
  -- the step divides the number
  obtain ⟨b, hb⟩ : 2 ^ i ∣ n * one := by
    rcases hlower with rfl | hlower
    · exact ⟨n * one, by simp⟩
    · rw [h] at hlower ⊢
      have hlt : 2 ^ (52 + i) < 2 ^ (53 + j) := by
        rw [Nat.pow_add, Nat.pow_add]
        exact Nat.lt_of_le_of_lt hlower (Nat.mul_lt_mul_of_pos_right ha (Nat.two_pow_pos j))
      have hle : 52 + i < 53 + j := (Nat.pow_lt_pow_iff_right (by decide)).1 hlt
      exact Nat.dvd_mul_left_of_dvd (Nat.pow_dvd_pow 2 (by omega)) a
  simp only [nearest, Nat.div_one, Nat.one_mul, hstep, Binary64.mk.injEq]
  rw [hb, Nat.mul_comm (2 ^ i) b, halfEven_mul b (Nat.two_pow_pos i)]

theorem ofNat_of_lt {n : Nat} (h : n < 2 ^ 53) : ofNat n = ⟨n * one⟩ :=
  nearest_of_fits (by rw [one_eq]) h

/-- The powers of ten that are doubles. -/
theorem powTen_of_le {k : Nat} (h : k ≤ 22) : powTen k = ⟨10 ^ k * one⟩ := by
  have hbits : 5 ^ k < 2 ^ 53 :=
    Nat.lt_of_le_of_lt (Nat.pow_le_pow_right (by decide) h) (by decide)
  rw [powTen, Nat.pow_eq]
  refine nearest_of_fits (a := 5 ^ k) (j := k + 1074) ?_ hbits
  rw [one_eq, Nat.pow_add, ← Nat.mul_assoc, ← Nat.mul_pow]

/-- The quotient of two numbers that are doubles is rounded once. -/
theorem ofNat_div_powTen {n k : Nat} (hn : n < 2 ^ 53) (hk : k ≤ 22) :
    (ofNat n).div (powTen k) = nearest n (10 ^ k) := by
  rw [ofNat_of_lt hn, powTen_of_le hk]
  exact nearest_mul_mul n one_pos

/-! ## How large doubles get -/

/-- Rounding less than doubles a quotient, or adds less than a unit to it. -/
theorem mul_units_nearest_le (num : Nat) {den : Nat} (hden : 0 < den) :
    den * (nearest num den).units ≤ 2 * (num * one) + den := by
  obtain ⟨j, q, hunits, hround⟩ := exists_isRounded num hden
  have hexact : den * (q * 2 ^ j) = den * 2 ^ j * q := by ring
  have hlow := hround.low
  rw [hunits, hexact]
  rcases hround.full with rfl | hfull
  · rw [Nat.pow_zero, Nat.mul_one] at hlow ⊢
    omega
  · omega

theorem units_ofNat_le (n : Nat) : (ofNat n).units ≤ (2 * n + 1) * one := by
  have hle : 1 * (nearest n 1).units ≤ 2 * (n * one) + 1 := mul_units_nearest_le n Nat.one_pos
  have hone := one_pos
  rw [ofNat, Nat.add_mul, Nat.mul_assoc]
  omega

theorem two_pow_mul_one_lt {a c : Nat} (h : a + 1074 < c) : 2 ^ a * one < Nat.pow 2 c := by
  rw [one_eq, ← Nat.pow_add]
  exact Nat.pow_lt_pow_right (by decide) h

/-- An integer of 64 bits times a small power of ten is far below the largest double. -/
theorem isFinite_mul_powTen {n k : Nat} (hn : n < 2 ^ 64) (hk : k ≤ 29) :
    ((ofNat n).mul (powTen k)).isFinite = true := by
  have hx : (ofNat n).units ≤ 2 ^ 66 * one :=
    (units_ofNat_le n).trans (Nat.mul_le_mul_right one (by omega))
  have hy : (powTen k).units ≤ 2 ^ 98 * one := by
    have hpow : Nat.pow 10 k ≤ 10 ^ 29 := Nat.pow_le_pow_right (by decide) hk
    exact (units_ofNat_le (Nat.pow 10 k)).trans (Nat.mul_le_mul_right one (by omega))
  have hunit : 0 < one * one := Nat.mul_pos one_pos one_pos
  -- counted in units, with the square of the unit as a factor on both sides
  have hproduct : one * one * ((ofNat n).mul (powTen k)).units ≤ one * one * (2 ^ 166 * one) := by
    calc one * one * ((ofNat n).mul (powTen k)).units
        ≤ 2 * ((ofNat n).units * (powTen k).units * one) + one * one := mul_units_nearest_le _ hunit
      _ ≤ 2 * (2 ^ 66 * one * (2 ^ 98 * one) * one) + one * one * one :=
          Nat.add_le_add
            (Nat.mul_le_mul_left 2 (Nat.mul_le_mul_right one (Nat.mul_le_mul hx hy)))
            (Nat.le_mul_of_pos_right _ one_pos)
      _ = one * one * ((2 * (2 ^ 66 * 2 ^ 98) + 1) * one) := by ring
      _ ≤ one * one * (2 ^ 166 * one) :=
          Nat.mul_le_mul_left _ (Nat.mul_le_mul_right one (by decide))
  have hle := Nat.le_of_mul_le_mul_left hproduct hunit
  have hlimit : 166 + 1074 < 2098 := by decide
  unfold isFinite
  generalize 2098 = c at hlimit ⊢
  exact decide_eq_true (Nat.lt_of_le_of_lt hle (two_pow_mul_one_lt hlimit))

end Binary64

end FilterLang
