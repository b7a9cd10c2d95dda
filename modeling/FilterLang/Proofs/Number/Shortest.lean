import FilterLang.Number.Shortest
import FilterLang.Proofs.Number.Rounding
import Mathlib.Tactic.Linarith

/-!
# Short decimals survive

A decimal of at most fifteen digits is printed as it was, when the double nearest to it is printed with its
shortest digits (`shortest_nearest`).  It reads back, as every quotient does from the double nearest to it
(`covers_nearest`); and on a grid as fine as its own places no other decimal does, because the steps between
doubles of that size are smaller than the grid (`Covers.unique`).  So the search ends on that grid at the
latest, and wherever it ends before, it has found the same number with fewer digits.
-/

namespace FilterLang

/-! ## Digits -/

theorem naturalDigits_append {n d : Nat} (hn : 0 < n) (hd : d < 10) :
    naturalDigits n ++ [d.digitChar] = naturalDigits (10 * n + d) := by
  rw [← Nat.toDigits_of_lt_base hd]
  exact Nat.toDigits_append_toDigits (by decide) hn hd

theorem length_naturalDigits_le_iff {n k : Nat} (hk : 0 < k) :
    (naturalDigits n).length ≤ k ↔ n < 10 ^ k :=
  Nat.length_toDigits_le_iff (by decide) hk

/-- The last digit of a number. -/
theorem exists_naturalDigits_eq (n : Nat) : ∃ front, naturalDigits n = front ++ [(n % 10).digitChar] := by
  by_cases hsmall : n < 10
  · refine ⟨[], ?_⟩
    rw [Nat.mod_eq_of_lt hsmall]
    exact Nat.toDigits_of_lt_base hsmall
  · exact ⟨naturalDigits (n / 10), Nat.toDigits_of_base_le (by decide) (by omega)⟩

namespace Binary64

theorem dropZeros_append_zero (digits : List Char) (exponent : Int) :
    dropZeros (digits ++ ['0']) exponent = dropZeros digits (exponent + 1) := by
  have hkept : ((digits ++ ['0']).reverse.dropWhile (· = '0')).reverse =
      (digits.reverse.dropWhile (· = '0')).reverse := by simp
  have hlen : (digits.reverse.dropWhile (· = '0')).reverse.length ≤ digits.length := by
    rw [List.length_reverse]
    exact (List.dropWhile_sublist _).length_le.trans List.length_reverse.le
  simp only [dropZeros, hkept, List.length_append, List.length_singleton, Prod.mk.injEq, true_and]
  omega

theorem dropZeros_append_of_ne {d : Char} (hd : d ≠ '0') (front : List Char) (exponent : Int) :
    dropZeros (front ++ [d]) exponent = (front ++ [d], exponent) := by
  simp [dropZeros, hd]

/-- Zeros dropped from a number leave the digits of a number that has none at its end. -/
theorem exists_dropZeros {c : Nat} (hc : 0 < c) (exponent : Int) :
    ∃ n z : Nat, dropZeros (naturalDigits c) exponent = (naturalDigits n, exponent + z) ∧
      c = n * 10 ^ z ∧ n % 10 ≠ 0 := by
  induction c using Nat.strong_induction_on generalizing exponent with
  | _ c ih =>
    by_cases hlast : c % 10 = 0
    · obtain ⟨b, rfl⟩ := Nat.dvd_of_mod_eq_zero hlast
      obtain ⟨n, z, hdrop, hb, hn⟩ := ih b (by omega) (by omega) (exponent + 1)
      refine ⟨n, z + 1, ?_, ?_, hn⟩
      · have hdigits : naturalDigits (10 * b) = naturalDigits b ++ ['0'] :=
          (naturalDigits_append (d := 0) (by omega) (by decide)).symm
        rw [hdigits, dropZeros_append_zero, hdrop, Prod.mk.injEq]
        exact ⟨rfl, by omega⟩
      · rw [hb]
        ring
    · refine ⟨c, 0, ?_, by simp, hlast⟩
      obtain ⟨front, hdigits⟩ := exists_naturalDigits_eq c
      have hd : (c % 10).digitChar ≠ '0' := mt Nat.digitChar_eq_zero.1 hlast
      rw [hdigits, dropZeros_append_of_ne hd]
      simp

/-! ## Decimals that are a quotient -/

/-- Whether `c * 10 ^ exponent` is the quotient. -/
def Writes (c : Nat) (exponent : Int) (num den : Nat) : Prop :=
  c * 10 ^ exponent.toNat * den = num * 10 ^ (-exponent).toNat

theorem writes_mul_pow_iff {c z : Nat} {e : Int} {num den : Nat} :
    Writes (c * 10 ^ z) e num den ↔ Writes c (e + z) num den := by
  -- on both sides the two powers are the same apart from a common factor
  have hpos : 0 < 10 ^ (-e).toNat * 10 ^ (-(e + z)).toNat := by positivity
  have hexp : e.toNat + z + (-(e + z)).toNat = (e + z).toNat + (-e).toNat := by omega
  have hpow : 10 ^ e.toNat * 10 ^ z * 10 ^ (-(e + z)).toNat = 10 ^ (e + z).toNat * 10 ^ (-e).toNat := by
    rw [← Nat.pow_add, ← Nat.pow_add, ← Nat.pow_add, hexp]
  unfold Writes
  rw [← Nat.mul_left_inj (a := 10 ^ (-(e + z)).toNat) (by positivity),
    ← Nat.mul_left_inj (a := 10 ^ (-e).toNat) (b := c * 10 ^ (e + z).toNat * den) (by positivity)]
  have hleft : c * 10 ^ z * 10 ^ e.toNat * den * 10 ^ (-(e + z)).toNat =
      c * 10 ^ (e + z).toNat * den * 10 ^ (-e).toNat := by
    calc c * 10 ^ z * 10 ^ e.toNat * den * 10 ^ (-(e + z)).toNat
        = c * den * (10 ^ e.toNat * 10 ^ z * 10 ^ (-(e + z)).toNat) := by ring
      _ = c * 10 ^ (e + z).toNat * den * 10 ^ (-e).toNat := by rw [hpow]; ring
  rw [hleft, Nat.mul_right_comm num]

/-- On a grid that is not finer than `10 ^ -J` every point is a whole number of those. -/
theorem writes_of_le {J : Nat} {e : Int} (h : -J ≤ e) (c : Nat) :
    Writes c e (c * 10 ^ (e + J).toNat) (10 ^ J) := by
  have hexp : e.toNat + J = (e + J).toNat + (-e).toNat := by omega
  rw [Writes, Nat.mul_assoc, Nat.mul_assoc, ← Nat.pow_add, ← Nat.pow_add, hexp]

/-- A common factor does not count. -/
theorem writes_mul_mul_iff {c : Nat} {e : Int} {num den a : Nat} (ha : 0 < a) :
    Writes c e (num * a) (den * a) ↔ Writes c e num den := by
  unfold Writes
  rw [← Nat.mul_assoc, Nat.mul_right_comm num, Nat.mul_left_inj (by omega)]

/-- With a negative exponent the last digit stands behind the point, and if it is no zero, it stands no
further behind than in the decimal written. -/
theorem Writes.exists_places {n m k : Nat} {e : Int} (h : Writes n e m (10 ^ k)) (hn : n % 10 ≠ 0)
    (hneg : e < 0) : ∃ j : Nat, e = -j ∧ n * 10 ^ k = m * 10 ^ j ∧ j ≤ k ∧ n ≤ m := by
  obtain ⟨j, rfl⟩ : ∃ j : Nat, e = -j := ⟨e.natAbs, by omega⟩
  have heq : n * 10 ^ k = m * 10 ^ j := by
    have hzero : (-(j : Int)).toNat = 0 := by omega
    rw [Writes, hzero, Int.neg_neg, Int.toNat_natCast, Nat.pow_zero, Nat.mul_one] at h
    exact h
  -- more places than were written would end with a zero
  have hjk : j ≤ k := by
    by_contra hlt
    obtain ⟨z, hz⟩ : ∃ z, j = k + (z + 1) := ⟨j - k - 1, by omega⟩
    have hcancel : n * 10 ^ k = 10 * (m * 10 ^ z) * 10 ^ k := by
      rw [heq, hz]
      ring
    have := Nat.eq_of_mul_eq_mul_right (by positivity) hcancel
    omega
  have hle : n * 10 ^ k ≤ m * 10 ^ k := by
    rw [heq]
    exact Nat.mul_le_mul_left m (Nat.pow_le_pow_right (by decide) hjk)
  exact ⟨j, rfl, heq, hjk, Nat.le_of_mul_le_mul_right hle (by positivity)⟩

/-- Without a negative exponent the decimal is a whole number. -/
theorem Writes.exists_zeros {n m k : Nat} {e : Int} (h : Writes n e m (10 ^ k)) (hnonneg : 0 ≤ e) :
    ∃ j : Nat, e = j ∧ n * 10 ^ j * 10 ^ k = m := by
  obtain ⟨j, rfl⟩ : ∃ j : Nat, e = j := ⟨e.natAbs, by omega⟩
  have hzero : (-(j : Int)).toNat = 0 := by omega
  rw [Writes, hzero, Int.toNat_natCast, Nat.pow_zero, Nat.mul_one] at h
  exact ⟨j, rfl, h⟩

/-! ## The quotients a double stands for -/

/-- Whether the quotient lies where numbers round to the double. -/
def Covers (x : Binary64) (num den : Nat) : Prop :=
  let step := spacing x.units
  let significand := x.units / step
  let gap := if significand = 2 ^ 52 ∧ 1 < step then step else 2 * step
  let low := (4 * x.units - gap) * den
  let high := (4 * x.units + 2 * step) * den
  let point := 4 * (num * one)
  if significand % 2 = 0 then low ≤ point ∧ point ≤ high else low < point ∧ point < high

/-- A decimal reads back if the double covers it, however it is written as a quotient. -/
theorem readsBack_iff_covers {x : Binary64} {e : Int} {c num den : Nat} (hden : 0 < den)
    (h : Writes c e num den) : x.readsBack e c = true ↔ x.Covers num den := by
  have hscale : 0 < 10 ^ (-e).toNat := by positivity
  have hpoint : 4 * c * (one * 10 ^ e.toNat) * den = 4 * (num * one) * 10 ^ (-e).toNat := by
    calc 4 * c * (one * 10 ^ e.toNat) * den = 4 * one * (c * 10 ^ e.toNat * den) := by ring
      _ = 4 * one * (num * 10 ^ (-e).toNat) := by rw [h]
      _ = 4 * (num * one) * 10 ^ (-e).toNat := by ring
  -- a bound on the grid is the same bound on the quotient
  have hle : ∀ a, a * 10 ^ (-e).toNat ≤ 4 * c * (one * 10 ^ e.toNat) ↔ a * den ≤ 4 * (num * one) := by
    intro a
    rw [← Nat.mul_le_mul_right_iff hden, hpoint, Nat.mul_right_comm, Nat.mul_le_mul_right_iff hscale]
  have hge : ∀ a, 4 * c * (one * 10 ^ e.toNat) ≤ a * 10 ^ (-e).toNat ↔ 4 * (num * one) ≤ a * den := by
    intro a
    rw [← Nat.mul_le_mul_right_iff hden, hpoint, Nat.mul_right_comm a, Nat.mul_le_mul_right_iff hscale]
  unfold readsBack Covers onGrid
  simp only [Nat.pow_eq]
  split <;> simp only [Bool.and_eq_true, decide_eq_true_eq, ← Nat.not_le, hle, hge]

/-- Every quotient is covered by the double nearest to it. -/
theorem covers_nearest (num : Nat) {den : Nat} (hden : 0 < den) : (nearest num den).Covers num den := by
  obtain ⟨j, q, hunits, hround⟩ := exists_isRounded num hden
  have hpos : 0 < 2 ^ j := Nat.two_pow_pos j
  have hlow := hround.low
  have hhigh := hround.high
  have hexact : 4 * (q * 2 ^ j) * den = 4 * (den * 2 ^ j * q) := by ring
  have hstep : 2 * 2 ^ j * den = 2 * (den * 2 ^ j) := by ring
  unfold Covers
  rw [hunits]
  rcases hround.spacing_eq hden with ⟨hlt, hspacing⟩ | ⟨heq, hspacing⟩
  · rw [hspacing]
    simp only [Nat.mul_div_cancel q hpos]
    split
    · refine ⟨?_, ?_⟩
      · split
        · -- just above a power of two nothing is rounded up
          rename_i hgap
          have hj : j ≠ 0 := by
            rintro rfl
            exact absurd hgap.2 (by decide)
          have hfull := hround.full.resolve_left hj
          calc (4 * (q * 2 ^ j) - 2 ^ j) * den ≤ 4 * (q * 2 ^ j) * den :=
                Nat.mul_le_mul_right den (Nat.sub_le _ _)
            _ = 4 * (2 ^ 52 * (den * 2 ^ j)) := by rw [hgap.1]; ring
            _ ≤ 4 * (num * one) := Nat.mul_le_mul_left 4 hfull
        · rw [Nat.sub_mul, hexact, hstep]
          omega
      · rw [Nat.add_mul, hexact, hstep]
        omega
    · rename_i hodd
      have hstrict := hround.odd (by omega)
      have hmany : den * 2 ^ j ≤ den * 2 ^ j * q := Nat.le_mul_of_pos_right _ (by omega)
      have hgap : ¬(q = 2 ^ 52 ∧ 1 < 2 ^ j) := by
        rintro ⟨rfl, -⟩
        exact hodd (by decide)
      rw [if_neg hgap, Nat.sub_mul, Nat.add_mul, hexact, hstep]
      omega
  · have hsig : q * 2 ^ j / (2 * 2 ^ j) = 2 ^ 52 := by
      rw [heq, Nat.mul_div_mul_right _ _ hpos]
      rfl
    have hgap : 2 ^ 52 = 2 ^ 52 ∧ 1 < 2 * 2 ^ j := ⟨rfl, by omega⟩
    have hdouble : 2 * (2 * 2 ^ j) * den = 4 * (den * 2 ^ j) := by ring
    rw [hspacing]
    dsimp only
    rw [hsig, if_pos (by decide), if_pos hgap, Nat.sub_mul, Nat.add_mul, hexact, hstep, hdouble]
    omega

/-- What a double covers is at most half a step off. -/
theorem Covers.near {x : Binary64} {num den : Nat} (h : x.Covers num den) :
    2 * (x.units * den) ≤ 2 * (num * one) + spacing x.units * den ∧
      2 * (num * one) ≤ 2 * (x.units * den) + spacing x.units * den := by
  have hgap : ∀ p : Prop, ∀ [Decidable p], 4 * (x.units * den) ≤
      (4 * x.units - if p then spacing x.units else 2 * spacing x.units) * den +
        2 * (spacing x.units * den) := by
    intro p _
    rw [Nat.sub_mul, Nat.mul_assoc 4]
    split
    · omega
    · rw [Nat.mul_assoc 2]
      omega
  have hlow := hgap (x.units / spacing x.units = 2 ^ 52 ∧ 1 < spacing x.units)
  unfold Covers at h
  simp only [Nat.add_mul, Nat.mul_assoc 4, Nat.mul_assoc 2] at h
  split at h <;> omega

/-- Of the multiples of a unit that is larger than the step only one is covered. -/
theorem Covers.unique {x : Binary64} {a b den : Nat} (ha : x.Covers a den) (hb : x.Covers b den)
    (hstep : spacing x.units * den < one) : a = b := by
  have hab : ∀ {c d : Nat}, x.Covers c den → x.Covers d den → c ≤ d := by
    intro c d hc hd
    have hbound : c * one < (d + 1) * one := by
      have := hc.near
      have := hd.near
      rw [Nat.add_mul, Nat.one_mul]
      omega
    exact Nat.lt_succ_iff.1 (Nat.lt_of_mul_lt_mul_right hbound)
  exact Nat.le_antisymm (hab ha hb) (hab hb ha)

/-! ## The search -/

theorem readsBack_of_gridPoint? {x : Binary64} {e : Int} {c : Nat} (h : x.gridPoint? e = some c) :
    x.readsBack e c = true := by
  obtain ⟨num, den, hgrid⟩ : ∃ num den, x.onGrid e = (num, den) := ⟨_, _, rfl⟩
  simp only [gridPoint?, hgrid] at h
  split at h
  · rename_i hbelow habove
    cases h
    -- rounded, the quotient is one of the two points
    have hcases : halfEven num den = num / den ∨ halfEven num den = num / den + 1 := by
      unfold halfEven
      dsimp only
      split
      · exact .inl rfl
      · split
        · exact .inr rfl
        · omega
    rcases hcases with hpoint | hpoint
    · rw [hpoint]
      exact hbelow
    · rw [hpoint]
      exact habove
  · rename_i hbelow _
    cases h
    exact hbelow
  · rename_i _ habove
    cases h
    exact habove
  · cases h

/-- A point that reads back and is less than one off is found, or the other one is. -/
theorem exists_gridPoint? {x : Binary64} {e : Int} {c num den : Nat} (hgrid : x.onGrid e = (num, den))
    (hbelow : num < (c + 1) * den) (habove : c * den < num + den) (h : x.readsBack e c = true) :
    ∃ b, x.gridPoint? e = some b := by
  have hden : 0 < den := by
    rcases Nat.eq_zero_or_pos den with rfl | hpos
    · omega
    · exact hpos
  have hcases : c = num / den ∨ c = num / den + 1 := by
    have hle : num / den < c + 1 := (Nat.div_lt_iff_lt_mul hden).2 hbelow
    have hge : c ≤ (num + den) / den := (Nat.le_div_iff_mul_le hden).2 (Nat.le_of_lt habove)
    rw [Nat.add_div_right _ hden] at hge
    omega
  simp only [gridPoint?, hgrid]
  rcases hcases with rfl | rfl
  · rw [h]
    split <;> simp_all
  · rw [h]
    split <;> simp_all

theorem onGrid_neg (x : Binary64) (J : Nat) : x.onGrid (-J) = (x.units * 10 ^ J, one) := by
  have hup : (-(J : Int)).toNat = 0 := by omega
  simp only [onGrid, Int.neg_neg, Int.toNat_natCast, hup, Nat.pow_eq, Nat.pow_zero, Nat.mul_one]

/-- Counted in units of `10 ^ -324`, a double of full size is at least one. -/
theorem one_le_mul_pow {u : Nat} (h : 2 ^ 52 ≤ u) : one ≤ u * 10 ^ 324 := by
  have hsplit : ∀ b k l m n : Nat, k = l * m + n → b ^ k = (b ^ l) ^ m * b ^ n := by
    rintro b k l m n rfl
    rw [Nat.pow_add, Nat.pow_mul]
  have hbase : (2 ^ 33) ^ 30 ≤ (10 ^ 10) ^ 30 := Nat.pow_le_pow_left (by decide) 30
  have hrest : 2 ^ 52 * 2 ^ 32 ≤ u * 10 ^ 24 := Nat.mul_le_mul h (by decide)
  calc one = (2 ^ 33) ^ 30 * 2 ^ 84 := one_eq.trans (hsplit 2 1074 33 30 84 rfl)
    _ ≤ (10 ^ 10) ^ 30 * (u * 10 ^ 24) := Nat.mul_le_mul hbase hrest
    _ = u * 10 ^ 324 := by rw [Nat.mul_left_comm, hsplit 10 324 10 30 24 rfl]

/-- The leading digit of a double of full size stands for the power of ten at or below it. -/
theorem exists_leadingExponent {x : Binary64} (h : 2 ^ 52 ≤ x.units) :
    ∃ p : Nat, x.leadingExponent = p - 324 ∧ 10 ^ p * one ≤ x.units * 10 ^ 324 ∧
      x.units * 10 ^ 324 < 10 ^ (p + 1) * one := by
  have hgrid : x.onGrid (-324) = (x.units * 10 ^ 324, one) := onGrid_neg x 324
  have hpos : 1 ≤ x.units * 10 ^ 324 / one := by
    rw [Nat.le_div_iff_mul_le one_pos, Nat.one_mul]
    exact one_le_mul_pow h
  obtain ⟨p, hlen⟩ : ∃ p, (naturalDigits (x.units * 10 ^ 324 / one)).length = p + 1 :=
    Nat.exists_eq_succ_of_ne_zero (mt List.length_eq_zero_iff.1 (naturalDigits_ne_nil _))
  have hhigh := (length_naturalDigits_le_iff (Nat.succ_pos p)).1 (Nat.le_of_eq hlen)
  have hlow : 10 ^ p ≤ x.units * 10 ^ 324 / one := by
    rcases Nat.eq_zero_or_pos p with rfl | hp
    · exact hpos
    · by_contra hlt
      have hshort := (length_naturalDigits_le_iff hp).2 (Nat.lt_of_not_le hlt)
      omega
  refine ⟨p, ?_, (Nat.le_div_iff_mul_le one_pos).1 hlow, (Nat.div_lt_iff_lt_mul one_pos).1 hhigh⟩
  simp only [leadingExponent, hgrid, hlen]
  omega

/-- The search ends with the first grid on which there is a point. -/
theorem exists_shortest {x : Binary64} {n b : Nat} (hn : n < 17)
    (h : x.gridPoint? (x.leadingExponent - n) = some b) :
    ∃ i c, i ≤ n ∧ x.gridPoint? (x.leadingExponent - i) = some c ∧
      x.shortest = dropZeros (naturalDigits c) (x.leadingExponent - i) := by
  obtain ⟨hit?, hhit⟩ : ∃ hit? : Nat → Option (List Char × Int), hit? = fun (i : Nat) =>
    (x.gridPoint? (x.leadingExponent - i)).map fun c =>
      dropZeros (naturalDigits c) (x.leadingExponent - i) := ⟨_, rfl⟩
  have hmem : n ∈ List.range 17 := List.mem_range.2 hn
  have hsome : ((List.range 17).findSome? hit?).isSome := by
    rw [List.findSome?_isSome_iff]
    exact ⟨n, hmem, by simp [hhit, h]⟩
  obtain ⟨r, hr⟩ := Option.isSome_iff_exists.1 hsome
  have hshort : x.shortest = r := by
    rw [hhit] at hr
    simp only [shortest]
    rw [hr]
    rfl
  obtain ⟨front, i, back, hrange, hi, hfront⟩ := List.findSome?_eq_some_iff.1 hr
  have hle : i ≤ n := by
    -- the range ascends, and the grids in front have no point
    have hascending := List.pairwise_lt_range (n := 17)
    rw [hrange] at hascending hmem
    rcases List.mem_append.1 hmem with hmem | hmem
    · have hnone := hfront n hmem
      simp [hhit, h] at hnone
    · rcases List.mem_cons.1 hmem with rfl | hmem
      · exact Nat.le_refl n
      · have htail := List.pairwise_cons.1 (List.pairwise_append.1 hascending).2.1
        exact Nat.le_of_lt (htail.1 n hmem)
  rw [hhit] at hi
  obtain ⟨c, hc, rfl⟩ := Option.map_eq_some_iff.1 hi
  exact ⟨i, c, hle, hc, hshort⟩

/-! ## Decimals of at most fifteen digits -/

theorem mul_spacing_le {u : Nat} (h : 2 ^ 52 ≤ u) : 2 ^ 52 * spacing u ≤ u := by
  obtain ⟨j, hstep, -, hfull⟩ := exists_spacing u
  rw [hstep]
  rcases hfull with rfl | hfull
  · exact h
  · exact hfull

/-- Above the least double of full size, rounding does not even double a number. -/
theorem units_nearest {num den : Nat} (hnum : 0 < num) (hden : 0 < den) (hnormal : 2 ^ 53 * den ≤ one) :
    2 ^ 52 ≤ (nearest num den).units ∧ (nearest num den).units * den ≤ 2 * (num * one) := by
  have hnear := (covers_nearest num hden).near
  obtain ⟨j, hstep, -, hfull⟩ := exists_spacing (nearest num den).units
  have hone : 2 ^ 53 * den ≤ num * one :=
    Nat.le_trans hnormal (Nat.le_mul_of_pos_left one hnum)
  rw [hstep] at hnear
  generalize (nearest num den).units = u at *
  have hu : 2 ^ 52 ≤ u := by
    rcases hfull with rfl | hfull
    · have hcancel : 2 ^ 54 * den ≤ (2 * u + 1) * den := by
        rw [Nat.add_mul, Nat.one_mul, Nat.mul_assoc]
        omega
      have := Nat.le_of_mul_le_mul_right hcancel hden
      omega
    · exact Nat.le_trans (Nat.le_mul_of_pos_right _ (Nat.two_pow_pos j)) hfull
  refine ⟨hu, ?_⟩
  have hsmall : 2 ^ j ≤ u := by
    rcases hfull with rfl | hfull
    · omega
    · exact Nat.le_trans (Nat.le_mul_of_pos_left _ (by decide)) hfull
  have := Nat.mul_le_mul_right den hsmall
  omega

/-- The search reaches a grid that is as fine as the places of the decimal, and on which no two points are
covered together. -/
theorem exists_grid {m k : Nat} (hpos : 0 < m) (hm : m < 10 ^ 15) (hnormal : 2 ^ 53 * 10 ^ k ≤ one) :
    ∃ J n : Nat, k ≤ J ∧ n < 17 ∧ (nearest m (10 ^ k)).leadingExponent - n = -J ∧
      spacing (nearest m (10 ^ k)).units * 10 ^ J < one := by
  have hden : 0 < 10 ^ k := by positivity
  obtain ⟨hfull, hsize⟩ := units_nearest hpos hden hnormal
  obtain ⟨p, htop, hlow, hhigh⟩ := exists_leadingExponent hfull
  have hstep := mul_spacing_le hfull
  obtain ⟨t, ht⟩ : ∃ t, t = 324 := ⟨_, rfl⟩
  rw [← ht] at hlow hhigh
  rw [htop]
  generalize (nearest m (10 ^ k)).units = u at *
  have hbound : 2 * (m * one) < 2 * 10 ^ 15 * one := by
    have := Nat.mul_lt_mul_of_pos_right hm one_pos
    omega
  -- on a grid on which the double has less than `2 ^ 52` units, a step is less than one of them
  have hfine : ∀ J, u * 10 ^ J < 2 ^ 52 * one → spacing u * 10 ^ J < one := by
    intro J hJ
    have hmul : 2 ^ 52 * (spacing u * 10 ^ J) < 2 ^ 52 * one := by
      rw [← Nat.mul_assoc]
      exact Nat.lt_of_le_of_lt (Nat.mul_le_mul_right _ hstep) hJ
    exact Nat.lt_of_mul_lt_mul_left hmul
  by_cases hk : t ≤ p + k
  · refine ⟨k, p + k - t, Nat.le_refl k, ?_, by omega, hfine k (by omega)⟩
    have hmul : 10 ^ (p + k) * one < 10 ^ (t + 16) * one := by
      calc 10 ^ (p + k) * one = 10 ^ p * one * 10 ^ k := by rw [Nat.pow_add, Nat.mul_right_comm]
        _ ≤ u * 10 ^ t * 10 ^ k := Nat.mul_le_mul_right _ hlow
        _ = 10 ^ t * (u * 10 ^ k) := by ring
        _ < 10 ^ t * (10 ^ 16 * one) := by
          refine Nat.mul_lt_mul_of_pos_left ?_ (by positivity)
          omega
        _ = 10 ^ (t + 16) * one := by rw [Nat.pow_add, Nat.mul_assoc]
    have hpow := (Nat.pow_lt_pow_iff_right (by decide)).1 (Nat.lt_of_mul_lt_mul_right hmul)
    omega
  · refine ⟨t - p, 0, by omega, by decide, by omega, hfine _ ?_⟩
    have hmul : u * 10 ^ (t - p) * 10 ^ p < 10 * one * 10 ^ p := by
      calc u * 10 ^ (t - p) * 10 ^ p = u * 10 ^ t := by
            rw [Nat.mul_assoc, ← Nat.pow_add, Nat.sub_add_cancel (by omega)]
        _ < 10 ^ (p + 1) * one := hhigh
        _ = 10 * one * 10 ^ p := by ring
    have := Nat.lt_of_mul_lt_mul_right hmul
    omega

/-- The shortest digits of the double nearest to a decimal of at most fifteen digits are those of the
decimal, without the zeros at its end. -/
theorem shortest_nearest {m k : Nat} (hpos : 0 < m) (hm : m < 10 ^ 15)
    (hnormal : 2 ^ 53 * 10 ^ k ≤ one) :
    ∃ n e, (nearest m (10 ^ k)).shortest = (naturalDigits n, e) ∧ n % 10 ≠ 0 ∧ Writes n e m (10 ^ k) := by
  have hden : 0 < 10 ^ k := by positivity
  have hcovers := covers_nearest m hden
  obtain ⟨J, n, hkJ, hn, hgrid, hfine⟩ := exists_grid hpos hm hnormal
  generalize nearest m (10 ^ k) = x at *
  have hJpos : 0 < 10 ^ J := by positivity
  -- on that grid the decimal is a point that is covered
  obtain ⟨a, ha⟩ : ∃ a, a = m * 10 ^ (J - k) := ⟨_, rfl⟩
  have hsplit : 10 ^ J = 10 ^ k * 10 ^ (J - k) := by rw [← Nat.pow_add, Nat.add_sub_cancel' hkJ]
  have hsame : ∀ {c e}, Writes c e a (10 ^ J) ↔ Writes c e m (10 ^ k) := by
    intro c e
    rw [ha, hsplit]
    exact writes_mul_mul_iff (by positivity)
  have hpoint : Writes a (-J) a (10 ^ J) := by
    have := writes_of_le (Int.le_refl (-J)) a
    simpa using this
  have hreads : x.readsBack (-J) a = true := (readsBack_iff_covers hden (hsame.1 hpoint)).2 hcovers
  have hcoversJ : x.Covers a (10 ^ J) := (readsBack_iff_covers hJpos hpoint).1 hreads
  obtain ⟨b, hb⟩ : ∃ b, x.gridPoint? (-J) = some b := by
    have hnear := hcoversJ.near
    refine exists_gridPoint? (onGrid_neg x J) ?_ ?_ hreads
    · rw [Nat.add_mul, Nat.one_mul]
      omega
    · omega
  -- a point found before is the same number
  rw [← hgrid] at hb
  obtain ⟨i, c, hi, hc, hshort⟩ := exists_shortest hn hb
  have hcoarse : -J ≤ x.leadingExponent - i := by omega
  have hwrites := writes_of_le hcoarse c
  have hcoversc := (readsBack_iff_covers hJpos hwrites).1 (readsBack_of_gridPoint? hc)
  have heq := hcoversc.unique hcoversJ hfine
  rw [heq, hsame] at hwrites
  have hcpos : 0 < c := by
    have hapos : 0 < a := by
      rw [ha]
      positivity
    rw [← heq] at hapos
    exact Nat.pos_of_mul_pos_right hapos
  obtain ⟨d, z, hdrop, rfl, hd⟩ := exists_dropZeros hcpos (x.leadingExponent - i)
  exact ⟨d, _, hshort.trans hdrop, hd, writes_mul_pow_iff.1 hwrites⟩

end Binary64

end FilterLang
