import FilterLang.Json.Number
import FilterLang.Number.Decimal
import FilterLang.Proofs.Number.Shortest
import Mathlib.Data.List.Basic

/-!
# Numerals without an exponent

What the language itself writes as a number is a numeral without an exponent: perhaps a minus sign, digits
with no superfluous zero in front and, behind a point, further digits (`Numeral.Plain`).  Such a text is read
back digit for digit, whatever stands behind it, unless that goes on with the number
(`Numeral.Plain.take?_append`).

Reading can fail only where the number is too large for a double.  A numeral of at most 29 digits in front of
its point is far from that (`Numeral.exists_number?`), and no decimal has more (`Decimal.exists_numeral`).
-/

namespace FilterLang

/-! ## The first digit -/

theorem head?_naturalDigits_ne {n : Nat} (hn : 0 < n) : (naturalDigits n).head? ≠ some '0' := by
  induction n using Nat.strong_induction_on with
  | _ n ih =>
    by_cases hsmall : n < 10
    · have hdigit : naturalDigits n = [n.digitChar] := Nat.toDigits_of_lt_base hsmall
      rw [hdigit, List.head?_cons, ne_eq, Option.some.injEq, Nat.digitChar_eq_zero]
      omega
    · have hdigits : naturalDigits n = naturalDigits (n / 10) ++ [(n % 10).digitChar] :=
        Nat.toDigits_of_base_le (by decide) (by omega)
      rw [hdigits, List.head?_append_of_ne_nil _ (naturalDigits_ne_nil _)]
      exact ih (n / 10) (by omega) (by omega)

/-- Of the numbers only zero is written with a zero in front. -/
theorem naturalDigits_eq_of_head? {n : Nat} (h : (naturalDigits n).head? = some '0') :
    naturalDigits n = ['0'] := by
  rcases Nat.eq_zero_or_pos n with rfl | hpos
  · rfl
  · exact absurd h (head?_naturalDigits_ne hpos)

/-- So it is with the digits in front of a point: zeros are added only where the number has no digit there. -/
theorem front_eq_of_head? {n places : Nat} {front back : List Char} (hplaces : 0 < places)
    (hne : front ≠ []) (hback : back.length = places)
    (happ : front ++ back = List.replicate (places + 1 - (naturalDigits n).length) '0' ++ naturalDigits n)
    (hhead : front.head? = some '0') : front = ['0'] := by
  have hlength := congrArg List.length happ
  simp only [List.length_append, List.length_replicate] at hlength
  rcases Nat.lt_or_ge places (naturalDigits n).length with hlong | hshort
  · -- no zeros are added, and the number has none in front
    have hnone : places + 1 - (naturalDigits n).length = 0 := by omega
    rw [hnone, List.replicate_zero, List.nil_append] at happ
    have hzero : (naturalDigits n).head? = some '0' := by
      rw [← happ, List.head?_append_of_ne_nil _ hne]
      exact hhead
    rw [naturalDigits_eq_of_head? hzero, List.length_singleton] at hlong
    omega
  · obtain ⟨c, hc⟩ := List.length_eq_one_iff.1 (show front.length = 1 by omega)
    rw [hc, List.head?_cons, Option.some.injEq] at hhead
    rw [hc, hhead]

namespace Json

/-! ## Texts of numerals -/

/-- Whether the numeral has no exponent and consists of digits, none of them a superfluous zero in front. -/
structure Numeral.Plain (n : Numeral) : Prop where
  isDigitRun_whole : isDigitRun n.whole = true
  eq_zero_of_head : n.whole.head? = some '0' → n.whole = ['0']
  isDigit_fraction : ∀ c ∈ n.fraction, c.isDigit = true
  exponent : n.exponent = none

/-- The numeral as it is written, if it has no exponent; a point stands only in front of digits. -/
def Numeral.plainChars (n : Numeral) : List Char :=
  (if n.negative then ['-'] else []) ++
    (n.whole ++ if n.fraction.isEmpty then [] else '.' :: n.fraction)

theorem plain_naturalDigits (n : Nat) : Numeral.Plain ⟨false, naturalDigits n, [], none⟩ where
  isDigitRun_whole := isDigitRun_naturalDigits n
  eq_zero_of_head := naturalDigits_eq_of_head?
  isDigit_fraction := by
    intro c hc
    cases hc
  exponent := rfl

/-! ## Reading a numeral -/

theorem takeDigits?_append {run rest : List Char} (hrun : isDigitRun run = true)
    (hrest : ∀ c ∈ rest.head?, c.isDigit = false) : takeDigits? (run ++ rest) = some (run, rest) := by
  obtain ⟨hne, hdigits⟩ := isDigitRun_iff.1 hrun
  have hstop : rest.takeWhile Char.isDigit = [] ∧ rest.dropWhile Char.isDigit = rest := by
    cases rest with
    | nil => exact ⟨rfl, rfl⟩
    | cons c rest =>
      have hc : c.isDigit = false := hrest c rfl
      exact ⟨by simp [hc], by simp [hc]⟩
  have htake : (run ++ rest).takeWhile Char.isDigit = run := by
    rw [List.takeWhile_append_of_pos hdigits, hstop.1, List.append_nil]
  have hdrop : (run ++ rest).dropWhile Char.isDigit = rest := by
    rw [List.dropWhile_append_of_pos hdigits, hstop.2]
  simp [takeDigits?, htake, hdrop, hne]

theorem takeChar_of_head? {c : Char} {cs : List Char} (h : cs.head? ≠ some c) :
    takeChar c cs = (false, cs) := by
  cases cs with
  | nil => rfl
  | cons d cs =>
    have hne : d ≠ c := by simpa using h
    simp [takeChar, hne]

namespace Numeral

/-- Whether the text goes on with a number that has ended in front of it. -/
def Continues (rest : List Char) : Prop :=
  ∃ c ∈ rest.head?, c.isDigit = true ∨ c = '.' ∨ c = 'e' ∨ c = 'E'

theorem not_continues_nil : ¬Continues [] := by
  rintro ⟨c, hc, -⟩
  cases hc

theorem not_continues_cons {c : Char} {cs : List Char}
    (hc : c.isDigit = false ∧ c ≠ '.' ∧ c ≠ 'e' ∧ c ≠ 'E') : ¬Continues (c :: cs) := by
  rintro ⟨d, hd, hgoes⟩
  cases hd
  simp [hc] at hgoes

theorem takeExponent?_of_not_continues {rest : List Char} (hrest : ¬Continues rest) :
    takeExponent? rest = some (none, rest) := by
  cases rest with
  | nil => rfl
  | cons c cs =>
    have hc : ¬(c = 'e' ∨ c = 'E') := by
      intro hc
      exact hrest ⟨c, rfl, .inr (.inr hc)⟩
    rw [takeExponent?, if_neg hc]

theorem takeFraction?_append {digits rest : List Char} (hdigits : ∀ c ∈ digits, c.isDigit = true)
    (hrest : ¬Continues rest) :
    takeFraction? ((if digits.isEmpty then [] else '.' :: digits) ++ rest) = some (digits, rest) := by
  by_cases hempty : digits = []
  · have hpoint : rest.head? ≠ some '.' := by
      intro hhead
      exact hrest ⟨'.', hhead, .inr (.inl rfl)⟩
    simp [hempty, takeFraction?, takeChar_of_head? hpoint]
  · have hstop : ∀ c ∈ rest.head?, c.isDigit = false := by
      intro c hc
      rw [← Bool.not_eq_true]
      exact fun hdigit => hrest ⟨c, hc, .inl hdigit⟩
    have hrun := takeDigits?_append (isDigitRun_iff.2 ⟨hempty, hdigits⟩) hstop
    simpa [hempty, takeFraction?, takeChar] using hrun

/-- A plain numeral begins with its sign or with a digit. -/
theorem Plain.exists_cons {n : Numeral} (h : n.Plain) :
    ∃ c cs, n.plainChars = c :: cs ∧ (c = '-' ∨ c.isDigit = true) := by
  obtain ⟨hne, hdigits⟩ := isDigitRun_iff.1 h.isDigitRun_whole
  rw [plainChars]
  cases n.negative with
  | true => exact ⟨'-', _, rfl, .inl rfl⟩
  | false =>
    obtain ⟨c, cs, hwhole⟩ := List.exists_cons_of_ne_nil hne
    refine ⟨c, cs ++ if n.fraction.isEmpty then [] else '.' :: n.fraction, ?_, .inr ?_⟩
    · simp [hwhole]
    · exact hdigits c (hwhole ▸ List.mem_cons_self)

/-- A numeral is read to its end, if the text behind it does not go on with the number. -/
theorem Plain.take?_append {n : Numeral} (h : n.Plain) {rest : List Char} (hrest : ¬Continues rest) :
    take? (n.plainChars ++ rest) = some (n, rest) := by
  obtain ⟨negative, whole, fraction, exponent⟩ := n
  obtain ⟨hwhole, hzero, hfraction, hexponent⟩ := h
  dsimp only at hwhole hzero hfraction hexponent
  subst hexponent
  generalize htail : (if fraction.isEmpty then [] else '.' :: fraction) ++ rest = tail
  have hsign : takeChar '-' (plainChars ⟨negative, whole, fraction, none⟩ ++ rest) =
      (negative, whole ++ tail) := by
    have hbody : plainChars ⟨negative, whole, fraction, none⟩ ++ rest =
        (if negative then ['-'] else []) ++ (whole ++ tail) := by
      rw [plainChars, List.append_assoc, List.append_assoc, htail]
    rw [hbody]
    cases negative with
    | true => rfl
    | false =>
      obtain ⟨hne, hdigits⟩ := isDigitRun_iff.1 hwhole
      have hhead : (whole ++ tail).head? ≠ some '-' := by
        rw [List.head?_append_of_ne_nil _ hne]
        intro hminus
        exact absurd (hdigits '-' (List.mem_of_head? hminus)) (by decide)
      exact takeChar_of_head? hhead
  have hfront : takeDigits? (whole ++ tail) = some (whole, tail) := by
    refine takeDigits?_append hwhole ?_
    intro c hc
    rw [← htail] at hc
    by_cases hempty : fraction = []
    · simp only [hempty, List.isEmpty_nil, if_true, List.nil_append] at hc
      rw [← Bool.not_eq_true]
      exact fun hdigit => hrest ⟨c, hc, .inl hdigit⟩
    · simp only [List.isEmpty_iff, hempty, if_false, List.cons_append, List.head?_cons] at hc
      cases hc
      rfl
  have hback : takeFraction? tail = some (fraction, rest) := by
    rw [← htail]
    exact takeFraction?_append hfraction hrest
  have hleading : ¬(whole.head? = some '0' ∧ whole ≠ ['0']) := fun hhead => hhead.2 (hzero hhead.1)
  simp only [take?, hsign, hfront, Option.bind_eq_bind, Option.bind_some, if_neg hleading, hback,
    takeExponent?_of_not_continues hrest]
  rfl

/-! ## The number read -/

theorem gather_bounds {significand : Nat} (h : significand < 2 ^ 64) (digits : List Char) :
    (gather significand digits).1 < 2 ^ 64 ∧ (gather significand digits).2.length ≤ digits.length := by
  induction digits generalizing significand with
  | nil => exact ⟨h, Nat.le_refl _⟩
  | cons d rest ih =>
    rw [gather]
    split
    · rename_i hlonger
      obtain ⟨hsize, hlen⟩ := ih hlonger
      exact ⟨hsize, Nat.le_succ_of_le hlen⟩
    · exact ⟨h, Nat.le_refl _⟩

/-- Only a large power of ten takes a significand out of the range of doubles. -/
theorem exists_scaled? {significand : Nat} {exponent : Int} (h : significand < 2 ^ 64)
    (hexponent : exponent ≤ 29) : ∃ x, scaled? significand exponent = some x := by
  rw [scaled?]
  dsimp only
  split
  · -- downwards there is always a double, if only zero
    split
    · exact ⟨_, rfl⟩
    · split
      · exact ⟨_, rfl⟩
      · exact ⟨_, rfl⟩
  · have hsmall : exponent.natAbs ≤ 29 := by omega
    have hplain : exponent.natAbs ≤ 308 := by omega
    rw [if_pos hplain, if_pos (Binary64.isFinite_mul_powTen h hsmall)]
    exact ⟨_, rfl⟩

theorem exists_number? {n : Numeral} (h : n.Plain) (hwhole : n.whole.length ≤ 29) :
    ∃ number, n.number? = some number := by
  obtain ⟨hfront, hdropped⟩ := gather_bounds (show 0 < 2 ^ 64 by decide) n.whole
  rw [number?]
  generalize gather 0 n.whole = gathered at hfront hdropped ⊢
  obtain ⟨front, dropped⟩ := gathered
  dsimp only at hfront hdropped ⊢
  split
  · split
    · exact ⟨_, rfl⟩
    · split
      · exact ⟨_, rfl⟩
      · exact ⟨_, rfl⟩
  · obtain ⟨hsignificand, -⟩ := gather_bounds hfront n.fraction
    -- digits left over in front of the point raise the exponent, those behind it lower it
    have hexponent : (dropped.length : Int) -
        (n.fraction.length - (gather front n.fraction).2.length : Nat) + 0 ≤ 29 := by omega
    obtain ⟨x, hx⟩ := exists_scaled? hsignificand hexponent
    refine ⟨.double n.negative x, ?_⟩
    rw [h.exponent, hx]
    rfl

end Numeral

end Json

/-! ## Decimals -/

namespace Decimal

theorem length_naturalDigits_size (d : Decimal) : (naturalDigits d.size).length ≤ 29 := by
  have hsize := d.size_lt
  rw [length_naturalDigits_le_iff (by decide)]
  rw [Nat.pow_eq] at hsize
  omega

/-- A decimal is written as a plain numeral, with at most 29 digits in front of its point. -/
theorem exists_numeral (d : Decimal) :
    ∃ n : Json.Numeral, n.Plain ∧ d.toChars = n.plainChars ∧ n.whole.length ≤ 29 := by
  have hlen := d.length_naturalDigits_size
  rcases Nat.eq_zero_or_pos d.scale with hscale | hscale
  · refine ⟨⟨d.negative, naturalDigits d.size, [], none⟩, ⟨?_, ?_, ?_, rfl⟩, ?_, hlen⟩
    · exact isDigitRun_naturalDigits d.size
    · exact naturalDigits_eq_of_head?
    · intro c hc
      cases hc
    · rw [toChars, hscale, withPoint_zero, Json.Numeral.plainChars]
      simp
  · obtain ⟨front, back, hbody, hne, hback, happ⟩ := withPoint_eq (naturalDigits d.size) hscale
    have hall : ∀ c ∈ front ++ back, c.isDigit = true := by
      rw [happ]
      exact isDigit_of_mem_padded
    have hnonempty : back.isEmpty = false := by
      rw [List.isEmpty_eq_false_iff]
      rintro rfl
      simp only [List.length_nil] at hback
      omega
    refine ⟨⟨d.negative, front, back, none⟩, ⟨?_, ?_, ?_, rfl⟩, ?_, ?_⟩
    · exact isDigitRun_iff.2 ⟨hne, fun c hc => hall c (List.mem_append_left _ hc)⟩
    · exact front_eq_of_head? hscale hne hback happ
    · intro c hc
      exact hall c (List.mem_append_right _ hc)
    · rw [toChars, hbody, Json.Numeral.plainChars]
      simp [hnonempty]
    · have hlength := congrArg List.length happ
      simp only [List.length_append, List.length_replicate] at hlength
      dsimp only
      omega

end Decimal

end FilterLang
