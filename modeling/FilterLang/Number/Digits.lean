/-!
# Decimal digits

Numbers are written as runs of ASCII digits.  `digitsValue` reads a run and `naturalDigits` writes
one; `digitsValue_naturalDigits` says that the first undoes the second.  `withPoint` puts a decimal
point in front of the last digits of a run, and `halfUp` and `halfEven` are the two ways in which a
quotient of naturals is rounded.
-/

namespace FilterLang

/-! ## Reading and writing a run of digits -/

/-- The number a run of digits stands for; leading zeros do not count. -/
def digitsValue (digits : List Char) : Nat :=
  Nat.ofDigitChars 10 digits 0

/-- The digits of a number, with no superfluous zero in front. -/
def naturalDigits (n : Nat) : List Char :=
  Nat.toDigits 10 n

/-- Whether the text is a run of at least one ASCII digit. -/
def isDigitRun (cs : List Char) : Bool :=
  !cs.isEmpty && cs.all Char.isDigit

/-- Puts a point in front of the last `places` digits, with zeros in front so that at least one digit
is left of it; without places there is no point. -/
def withPoint (digits : List Char) (places : Nat) : List Char :=
  if places = 0 then digits
  else
    let padded := List.replicate (places + 1 - digits.length) '0' ++ digits
    padded.take (padded.length - places) ++ '.' :: padded.drop (padded.length - places)

@[simp] theorem digitsValue_naturalDigits (n : Nat) : digitsValue (naturalDigits n) = n :=
  Nat.ofDigitChars_ten_toDigits

theorem naturalDigits_ne_nil (n : Nat) : naturalDigits n ≠ [] :=
  Nat.toDigits_ne_nil

theorem isDigit_of_mem_naturalDigits {n : Nat} (c : Char) (h : c ∈ naturalDigits n) :
    c.isDigit = true :=
  Nat.isDigit_of_mem_toDigits (by decide) (by decide) h

/-- Zeros in front are digits too. -/
theorem isDigit_of_mem_padded {n k : Nat} (c : Char)
    (h : c ∈ List.replicate k '0' ++ naturalDigits n) : c.isDigit = true := by
  rcases List.mem_append.1 h with hzero | hdigit
  · rw [List.eq_of_mem_replicate hzero]
    rfl
  · exact isDigit_of_mem_naturalDigits c hdigit

theorem isDigitRun_iff {cs : List Char} :
    isDigitRun cs = true ↔ cs ≠ [] ∧ ∀ c ∈ cs, c.isDigit = true := by
  simp only [isDigitRun, Bool.and_eq_true, Bool.not_eq_true', List.isEmpty_eq_false_iff,
    List.all_eq_true]

theorem isDigitRun_naturalDigits (n : Nat) : isDigitRun (naturalDigits n) = true :=
  isDigitRun_iff.2 ⟨naturalDigits_ne_nil n, isDigit_of_mem_naturalDigits⟩

theorem isDigit_of_mem_run {cs : List Char} (h : isDigitRun cs = true) {c : Char} (hc : c ∈ cs) :
    c.isDigit = true :=
  (isDigitRun_iff.1 h).2 c hc

theorem ne_of_isDigit {c : Char} (h : c.isDigit = true) (d : Char) (hd : d.isDigit = false) : c ≠ d := by
  rintro rfl
  rw [hd] at h
  cases h

theorem digitsValue_append (front back : List Char) :
    digitsValue (front ++ back) = Nat.pow 10 back.length * digitsValue front + digitsValue back := by
  simp only [digitsValue, Nat.ofDigitChars_append]
  exact Nat.ofDigitChars_eq_ofDigitChars_zero

@[simp] theorem digitsValue_nil : digitsValue [] = 0 := rfl

/-- Zeros in front do not count. -/
theorem digitsValue_replicate_zero (n : Nat) (digits : List Char) :
    digitsValue (List.replicate n '0' ++ digits) = digitsValue digits := by
  simp [digitsValue, Nat.ofDigitChars_append, Nat.ofDigitChars_replicate_zero]

theorem withPoint_zero (digits : List Char) : withPoint digits 0 = digits := rfl

/-- With places there are exactly that many digits behind the point and at least one in front of it;
without the point these are the digits again, with zeros in front. -/
theorem withPoint_eq (digits : List Char) {places : Nat} (h : 0 < places) :
    ∃ front back, withPoint digits places = front ++ '.' :: back ∧ front ≠ [] ∧
      back.length = places ∧
      front ++ back = List.replicate (places + 1 - digits.length) '0' ++ digits := by
  generalize hp : List.replicate (places + 1 - digits.length) '0' ++ digits = padded
  have hlen : places + 1 ≤ padded.length := by
    subst hp
    simp only [List.length_append, List.length_replicate]
    omega
  refine ⟨padded.take (padded.length - places), padded.drop (padded.length - places), ?_, ?_, ?_,
    List.take_append_drop _ _⟩
  · simp [withPoint, Nat.pos_iff_ne_zero.1 h, hp]
  · intro hnil
    have hzero := congrArg List.length hnil
    simp only [List.length_take, List.length_nil] at hzero
    omega
  · simp only [List.length_drop]
    omega

/-- Nothing but a point and zeros is added to the digits. -/
theorem mem_withPoint {digits : List Char} {places : Nat} {c : Char}
    (h : c ∈ withPoint digits places) : c = '.' ∨ c = '0' ∨ c ∈ digits := by
  rcases Nat.eq_zero_or_pos places with rfl | hpos
  · exact .inr (.inr h)
  · obtain ⟨front, back, hsplit, _, _, happ⟩ := withPoint_eq digits hpos
    rw [hsplit, List.mem_append, List.mem_cons] at h
    have hmem : c = '.' ∨ c ∈ front ++ back := by
      rw [List.mem_append]
      rcases h with h | h | h
      · exact .inr (.inl h)
      · exact .inl h
      · exact .inr (.inr h)
    refine hmem.imp_right fun h => ?_
    rw [happ, List.mem_append] at h
    exact h.imp_left List.eq_of_mem_replicate

/-! ## Rounding a quotient -/

/-- The quotient rounded to the nearest natural, a half going up. -/
def halfUp (num den : Nat) : Nat :=
  (2 * num + den) / (2 * den)

/-- The quotient rounded to the nearest natural, a half going to the even one. -/
def halfEven (num den : Nat) : Nat :=
  let q := num / den
  let twice := 2 * (num % den)
  if twice < den then q else if den < twice then q + 1 else q + q % 2

/-- The rounded quotient is at most half a unit off. -/
theorem halfEven_near (num : Nat) {den : Nat} (h : 0 < den) :
    2 * (den * halfEven num den) ≤ 2 * num + den ∧ 2 * num ≤ 2 * (den * halfEven num den) + den := by
  have hdiv := Nat.div_add_mod num den
  have hmod := Nat.mod_lt num h
  have hparity := Nat.mod_two_eq_zero_or_one (num / den)
  have hsucc : den * (num / den + 1) = den * (num / den) + den := Nat.mul_succ _ _
  unfold halfEven
  dsimp only
  split
  · omega
  · split
    · omega
    · rcases hparity with hp | hp <;> rw [hp]
      · rw [Nat.add_zero]
        omega
      · omega

/-- A quotient without a remainder is not rounded. -/
theorem halfEven_mul (n : Nat) {den : Nat} (h : 0 < den) : halfEven (n * den) den = n := by
  simp [halfEven, Nat.mul_div_cancel _ h, h]

end FilterLang
