import FilterLang.Number.Digits

/-!
# Decimal numbers

A decimal keeps the places it was written with: `1.5` and `1.50` are different decimals that stand
for the same number, which is what `Decimal.sameNumber` compares.  Its size has at most 96 bits and
there are at most 28 places.

Reading (`Decimal.ofText?`) takes the digits one by one.  Digits that no longer fit behind the point
are dropped, and the first of them decides whether the last one kept is raised; an integer part that
does not fit is refused.  An exponent is applied to the decimal read in front of it.
-/

namespace FilterLang

/-- The number `size / 10 ^ scale`, below zero if `negative`.  A zero may be negative too, which shows
only where it is written. -/
structure Decimal where
  negative : Bool
  size : Nat
  scale : Nat
  size_lt : size < Nat.pow 2 96
  scale_le : scale ≤ 28
deriving DecidableEq

namespace Decimal

/-- The least number that is too large for a size. -/
def sizeLimit : Nat := Nat.pow 2 96

/-- The most places a decimal can have. -/
def maxScale : Nat := 28

/-- The coefficient: the number without its places. -/
def coeff (d : Decimal) : Int :=
  if d.negative then -d.size else d.size

/-- The decimal of the given sign, size and places, if there is one. -/
def make? (negative : Bool) (size scale : Nat) : Option Decimal :=
  if h : size < Nat.pow 2 96 ∧ scale ≤ 28 then some ⟨negative, size, scale, h.1, h.2⟩ else none

theorem make?_eq_some {negative : Bool} {size scale : Nat} {d : Decimal} :
    make? negative size scale = some d ↔
      d.negative = negative ∧ d.size = size ∧ d.scale = scale := by
  constructor
  · intro h
    simp only [make?, Option.dite_none_right_eq_some, Option.some.injEq] at h
    obtain ⟨_, rfl⟩ := h
    exact ⟨rfl, rfl, rfl⟩
  · rintro ⟨rfl, rfl, rfl⟩
    exact dif_pos ⟨d.size_lt, d.scale_le⟩

/-- The same decimal, but a zero is not negative. -/
def dropZeroSign (d : Decimal) : Decimal :=
  { d with negative := d.negative && d.size != 0 }

theorem dropZeroSign_of_positive {d : Decimal} (h : d.negative = false) : d.dropZeroSign = d := by
  rw [dropZeroSign, h]
  cases d
  cases h
  rfl

/-- The decimal without places for a machine integer. -/
def ofInt64 (i : Int64) : Decimal :=
  ⟨i.toInt < 0, i.toInt.natAbs, 0,
    by rw [Nat.pow_eq]; have := i.le_toInt; have := i.toInt_lt; omega, by omega⟩

theorem coeff_ofInt64 (i : Int64) : (ofInt64 i).coeff = i.toInt := by
  by_cases h : i.toInt < 0 <;> simp only [ofInt64, coeff, h, decide_true, decide_false, if_true]
  · omega
  · simp only [Bool.false_eq_true, if_false]
    omega

/-- Whether two decimals stand for the same number, whatever their places. -/
def sameNumber (a b : Decimal) : Bool :=
  a.coeff * Nat.pow 10 b.scale == b.coeff * Nat.pow 10 a.scale

theorem sameNumber_refl (a : Decimal) : a.sameNumber a = true := by
  simp [sameNumber]

theorem sameNumber_comm (a b : Decimal) : a.sameNumber b = b.sameNumber a := by
  rw [Bool.eq_iff_iff, sameNumber, sameNumber, beq_iff_eq, beq_iff_eq]
  exact eq_comm

/-! ## Writing -/

/-- The decimal with all its places, and a minus sign if it is negative. -/
def toChars (d : Decimal) : List Char :=
  (if d.negative then ['-'] else []) ++ withPoint (naturalDigits d.size) d.scale

instance : ToString Decimal where
  toString d := String.ofList d.toChars

/-! ## Powers of ten -/

/-- The decimal times a power of ten.  Downwards the places grow, and digits that would pass the last
place are rounded, a half going away from zero; what is rounded to zero keeps its sign.  Upwards
places are used up before the size grows. -/
def shift? (d : Decimal) (exponent : Int) : Option Decimal :=
  let k := exponent.natAbs
  if maxScale < k then none
  else if exponent < 0 then
    if d.scale + k ≤ maxScale then make? d.negative d.size (d.scale + k)
    else make? d.negative (halfUp d.size (Nat.pow 10 (d.scale + k - maxScale))) maxScale
  else if k ≤ d.scale then make? d.negative d.size (d.scale - k)
  else make? (d.negative && d.size != 0) (d.size * Nat.pow 10 (k - d.scale)) 0

/-! ## Reading the digits -/

/-- What may stand among digits without being a number of its own: digits, and underscores that keep
them apart. -/
def isDigitOrSeparator (c : Char) : Bool :=
  c.isDigit || c == '_'

/-- The digit behind the last one kept decides alone: from five on the last one kept is raised.  A size
raised past the limit gives up its last place. -/
def roundAt (size scale : Nat) (next : Char) : Option (Nat × Nat) :=
  if digitsValue [next] < 5 then some (size, scale)
  else if size + 1 < sizeLimit then some (size + 1, scale)
  else if scale = 0 then none
  else some ((size + 5) / 10, scale - 1)

/-- Whether one more digit might take the size past 64 bits, by a cautious bound. -/
def isLong (size : Nat) : Bool :=
  (Nat.pow 2 64 - 1) / 10 - 255 ≤ size

/-- Takes in what stands behind the point for as long as there is room, and rounds at the first digit
for which there is none.  Separators are skipped; but once all places are taken, a separator behind a
number that was not long before its last digit counts as the digit zero. -/
def takeFraction (size scale : Nat) : List Char → Option (Nat × Nat)
  | [] => some (size, scale)
  | c :: rest =>
    if c.isDigit then
      let longer := 10 * size + digitsValue [c]
      if scale < maxScale ∧ longer < sizeLimit then takeFraction longer (scale + 1) rest
      else if rest.all isDigitOrSeparator then roundAt size scale c
      else none
    else if c = '_' then
      if scale < maxScale ∨ isLong (size / 10) then takeFraction size scale rest
      else if rest.all isDigitOrSeparator then some (size, scale)
      else none
    else none

theorem takeFraction_of_fits {size scale : Nat} {digits : List Char}
    (hdigits : ∀ c ∈ digits, c.isDigit = true) (hscale : scale + digits.length ≤ maxScale)
    (hsize : Nat.pow 10 digits.length * size + digitsValue digits < sizeLimit) :
    takeFraction size scale digits =
      some (Nat.pow 10 digits.length * size + digitsValue digits, scale + digits.length) := by
  induction digits generalizing size scale with
  | nil => simp [takeFraction]
  | cons d rest ih =>
    -- the first digit joins the number, and the rest follows as before
    have hval : Nat.pow 10 (d :: rest).length * size + digitsValue (d :: rest) =
        Nat.pow 10 rest.length * (10 * size + digitsValue [d]) + digitsValue rest := by
      have happ : digitsValue (d :: rest) = Nat.pow 10 rest.length * digitsValue [d] + digitsValue rest :=
        digitsValue_append [d] rest
      have hpow : Nat.pow 10 (rest.length + 1) = Nat.pow 10 rest.length * 10 := rfl
      rw [happ, List.length_cons, hpow, Nat.mul_add, Nat.mul_assoc, Nat.add_assoc]
    rw [hval] at hsize
    have hnext : 10 * size + digitsValue [d] < sizeLimit := by
      refine Nat.lt_of_le_of_lt ?_ hsize
      exact Nat.le_add_right_of_le (Nat.le_mul_of_pos_left _ (Nat.pow_pos (by decide)))
    simp only [List.length_cons] at hscale ⊢
    have hroom : scale < maxScale ∧ 10 * size + digitsValue [d] < sizeLimit := ⟨by omega, hnext⟩
    have hd : d.isDigit = true := hdigits d List.mem_cons_self
    simp only [takeFraction, hd, hroom, and_self, ↓reduceIte]
    rw [ih (fun c hc => hdigits c (List.mem_cons_of_mem _ hc)) (by omega) hsize, ← hval]
    simp only [List.length_cons, Option.some.injEq, Prod.mk.injEq, true_and]
    omega

/-- The decimal for what stands in front of and behind a point; a zero has no sign. -/
def ofDigits? (negative : Bool) (whole fraction : List Char) : Option Decimal :=
  let front := digitsValue (whole.filter Char.isDigit)
  if front < sizeLimit then do
    let (size, scale) ← takeFraction front 0 fraction
    make? (negative && size != 0) size scale
  else none

/-- Digits for which there is room are read exactly. -/
theorem ofDigits?_of_fits {whole fraction : List Char} {d : Decimal}
    (hdigits : ∀ c ∈ whole ++ fraction, c.isDigit = true)
    (hsize : digitsValue (whole ++ fraction) = d.size) (hscale : fraction.length = d.scale) :
    ofDigits? d.negative whole fraction = some d.dropZeroSign := by
  have hval := digitsValue_append whole fraction
  have hlt : digitsValue (whole ++ fraction) < sizeLimit := hsize ▸ d.size_lt
  have hwhole : digitsValue whole < sizeLimit := by
    refine Nat.lt_of_le_of_lt ?_ hlt
    rw [hval]
    exact Nat.le_add_right_of_le (Nat.le_mul_of_pos_left _ (Nat.pow_pos (by decide)))
  have hplaces : 0 + fraction.length ≤ maxScale := by
    rw [Nat.zero_add, hscale]
    exact d.scale_le
  have hkept : whole.filter Char.isDigit = whole :=
    List.filter_eq_self.2 fun c hc => hdigits c (List.mem_append_left _ hc)
  simp only [ofDigits?, hkept, hwhole, ↓reduceIte]
  rw [takeFraction_of_fits (fun c hc => hdigits c (List.mem_append_right _ hc)) hplaces (hval ▸ hlt),
    ← hval, hsize, Nat.zero_add, hscale]
  exact make?_eq_some.2 ⟨rfl, rfl, rfl⟩

/-! ## Reading a text -/

/-- Whether a sign stands in front, and the text behind it. -/
def takeSign : List Char → Bool × List Char
  | '-' :: rest => (true, rest)
  | '+' :: rest => (false, rest)
  | cs => (false, cs)

/-- What begins with a digit has no sign. -/
theorem takeSign_of_digit {c : Char} {cs : List Char} (h : c.isDigit = true) :
    takeSign (c :: cs) = (false, c :: cs) := by
  unfold takeSign
  split <;> simp_all

/-- Reads a number without an exponent: an optional sign, and digits with at most one point among them.
One side of the point may be bare; separators may stand anywhere behind the first digit. -/
def ofPlainText? (cs : List Char) : Option Decimal :=
  let (negative, body) := takeSign cs
  let whole := body.takeWhile isDigitOrSeparator
  if whole.head? = some '_' then none
  else
    match body.dropWhile isDigitOrSeparator with
    | [] => if whole.isEmpty then none else ofDigits? negative whole []
    | '.' :: fraction =>
      if whole.isEmpty && !fraction.head?.any Char.isDigit then none
      else ofDigits? negative whole fraction
    | _ => none

theorem isDigitOrSeparator_of_mem_run {cs : List Char} (h : isDigitRun cs = true) :
    ∀ c ∈ cs, isDigitOrSeparator c = true := by
  intro c hc
  simp [isDigitOrSeparator, isDigit_of_mem_run h hc]

theorem head?_ne_separator_of_run {cs : List Char} (h : isDigitRun cs = true) : cs.head? ≠ some '_' := by
  intro hhead
  exact absurd (isDigit_of_mem_run h (List.mem_of_head? hhead)) (by decide)

/-- Digits without a point are the whole number. -/
theorem ofPlainText?_of_run {cs whole : List Char} {negative : Bool} (hwhole : isDigitRun whole = true)
    (hsign : takeSign cs = (negative, whole)) : ofPlainText? cs = ofDigits? negative whole [] := by
  have hdigits := isDigitOrSeparator_of_mem_run hwhole
  have htake : (whole ++ []).takeWhile isDigitOrSeparator = whole :=
    (List.takeWhile_append_of_pos hdigits).trans (List.append_nil whole)
  have hdrop : (whole ++ []).dropWhile isDigitOrSeparator = [] := List.dropWhile_append_of_pos hdigits
  have hne : whole ≠ [] := (isDigitRun_iff.1 hwhole).1
  rw [List.append_nil] at htake hdrop
  simp [ofPlainText?, hsign, htake, hdrop, hne, head?_ne_separator_of_run hwhole]

/-- Digits in front of a point are the whole number, and what stands behind it is the fraction. -/
theorem ofPlainText?_of_point {cs whole fraction : List Char} {negative : Bool}
    (hwhole : isDigitRun whole = true) (hsign : takeSign cs = (negative, whole ++ '.' :: fraction)) :
    ofPlainText? cs = ofDigits? negative whole fraction := by
  have hdigits := isDigitOrSeparator_of_mem_run hwhole
  have hdot : isDigitOrSeparator '.' = false := by decide
  have htake : (whole ++ '.' :: fraction).takeWhile isDigitOrSeparator = whole := by
    rw [List.takeWhile_append_of_pos hdigits, List.takeWhile_cons, hdot]
    simp
  have hdrop : (whole ++ '.' :: fraction).dropWhile isDigitOrSeparator = '.' :: fraction := by
    rw [List.dropWhile_append_of_pos hdigits, List.dropWhile_cons, hdot]
    simp
  have hne : whole ≠ [] := (isDigitRun_iff.1 hwhole).1
  simp [ofPlainText?, hsign, htake, hdrop, hne, head?_ne_separator_of_run hwhole]

/-- Reading undoes writing, apart from the sign of a zero. -/
theorem ofPlainText?_toChars (d : Decimal) : ofPlainText? d.toChars = some d.dropZeroSign := by
  have hdigits : ∀ c ∈ naturalDigits d.size, c.isDigit = true := isDigit_of_mem_naturalDigits
  have hsign : ∀ {front back}, isDigitRun front = true →
      withPoint (naturalDigits d.size) d.scale = front ++ back →
      takeSign d.toChars = (d.negative, front ++ back) := by
    intro front back hfront hbody
    cases front with
    | nil => cases hfront
    | cons c rest =>
      cases hneg : d.negative with
      | true => simp [toChars, hneg, hbody, takeSign]
      | false =>
        simp only [toChars, hneg, Bool.false_eq_true, if_false, List.nil_append, hbody]
        exact takeSign_of_digit (isDigit_of_mem_run hfront List.mem_cons_self)
  rcases Nat.eq_zero_or_pos d.scale with hscale | hscale
  · have hrun := isDigitRun_naturalDigits d.size
    have hbody : withPoint (naturalDigits d.size) d.scale = naturalDigits d.size ++ [] := by
      rw [hscale, withPoint_zero, List.append_nil]
    have htaken := hsign hrun hbody
    rw [List.append_nil] at htaken
    rw [ofPlainText?_of_run hrun htaken]
    exact ofDigits?_of_fits (by simpa using hdigits) (by simp) (by simp [hscale])
  · obtain ⟨front, back, hbody, hne, hlen, happ⟩ := withPoint_eq (naturalDigits d.size) hscale
    have hall : ∀ c ∈ front ++ back, c.isDigit = true := by
      rw [happ]
      exact isDigit_of_mem_padded
    have hrun : isDigitRun front = true :=
      isDigitRun_iff.2 ⟨hne, fun c hc => hall c (List.mem_append_left _ hc)⟩
    rw [ofPlainText?_of_point hrun (hsign hrun hbody)]
    exact ofDigits?_of_fits hall (by rw [happ, digitsValue_replicate_zero, digitsValue_naturalDigits]) hlen

/-- Whether an exponent follows. -/
def isExponentMark (c : Char) : Bool :=
  c == 'e' || c == 'E'

/-- The size of an exponent: digits, with a plus sign in front or not. -/
def exponentSize? (cs : List Char) : Option Nat :=
  let digits := if cs.head? = some '+' then cs.drop 1 else cs
  if isDigitRun digits then some (digitsValue digits) else none

/-- An exponent; a minus sign stands in front of everything else. -/
def exponent? : List Char → Option Int
  | '-' :: rest => (exponentSize? rest).map fun k => -(k : Int)
  | cs => (exponentSize? cs).map fun k => (k : Int)

/-- Reads a decimal, which may have an exponent. -/
def ofText? (cs : List Char) : Option Decimal :=
  match cs.dropWhile fun c => !isExponentMark c with
  | [] => ofPlainText? cs
  | _ :: rest => do
    let base ← ofPlainText? (cs.takeWhile fun c => !isExponentMark c)
    base.shift? (← exponent? rest)

/-- A text in which no exponent is marked is read as it stands. -/
theorem ofText?_of_plain {cs : List Char} (h : ∀ c ∈ cs, isExponentMark c = false) :
    ofText? cs = ofPlainText? cs := by
  have hdrop : ((cs ++ []).dropWhile fun c => !isExponentMark c) = [] :=
    List.dropWhile_append_of_pos fun c hc => by simp [h c hc]
  rw [List.append_nil] at hdrop
  simp [ofText?, hdrop]

theorem isExponentMark_of_isDigit {c : Char} (h : c.isDigit = true) : isExponentMark c = false := by
  have he : c ≠ 'e' := by rintro rfl; exact absurd h (by decide)
  have hE : c ≠ 'E' := by rintro rfl; exact absurd h (by decide)
  simp [isExponentMark, he, hE]

/-- Digits on both sides of a point are a number without a sign and without an exponent. -/
theorem ofText?_of_point {whole fraction : List Char} (hwhole : isDigitRun whole = true)
    (hfraction : isDigitRun fraction = true) :
    ofText? (whole ++ '.' :: fraction) = ofDigits? false whole fraction := by
  have hplain : ∀ c ∈ whole ++ '.' :: fraction, isExponentMark c = false := by
    intro c hc
    rcases List.mem_append.1 hc with h | h
    · exact isExponentMark_of_isDigit (isDigit_of_mem_run hwhole h)
    · rcases List.mem_cons.1 h with rfl | h
      · decide
      · exact isExponentMark_of_isDigit (isDigit_of_mem_run hfraction h)
  have hunsigned : takeSign (whole ++ '.' :: fraction) = (false, whole ++ '.' :: fraction) := by
    cases whole with
    | nil => cases hwhole
    | cons c rest => exact takeSign_of_digit (isDigit_of_mem_run hwhole List.mem_cons_self)
  rw [ofText?_of_plain hplain, ofPlainText?_of_point hwhole hunsigned]

/-- What is written has no exponent. -/
theorem isExponentMark_of_mem_toChars {d : Decimal} {c : Char} (h : c ∈ d.toChars) :
    isExponentMark c = false := by
  rcases List.mem_append.1 h with hsign | hbody
  · split at hsign
    · rw [List.mem_singleton.1 hsign]
      decide
    · exact absurd hsign List.not_mem_nil
  · rcases mem_withPoint hbody with rfl | rfl | hdigit
    · decide
    · decide
    · exact isExponentMark_of_isDigit (isDigit_of_mem_naturalDigits c hdigit)

/-- Reading undoes writing, apart from the sign of a zero. -/
theorem ofText?_toChars (d : Decimal) : ofText? d.toChars = some d.dropZeroSign := by
  rw [ofText?_of_plain fun _ hc => isExponentMark_of_mem_toChars hc, ofPlainText?_toChars]

/-- A written decimal with an exponent behind it is read, and then shifted. -/
theorem ofText?_toChars_append (d : Decimal) {mark : Char} (hmark : isExponentMark mark = true)
    (rest : List Char) :
    ofText? (d.toChars ++ mark :: rest) = (exponent? rest).bind d.dropZeroSign.shift? := by
  have hplain : ∀ c ∈ d.toChars, (!isExponentMark c) = true := by
    intro c hc
    rw [isExponentMark_of_mem_toChars hc]
    rfl
  have hdrop : (d.toChars ++ mark :: rest).dropWhile (fun c => !isExponentMark c) = mark :: rest := by
    rw [List.dropWhile_append_of_pos hplain]
    simp [hmark]
  have htake : (d.toChars ++ mark :: rest).takeWhile (fun c => !isExponentMark c) = d.toChars := by
    rw [List.takeWhile_append_of_pos hplain]
    simp [hmark]
  rw [ofText?, hdrop, htake, ofPlainText?_toChars]
  rfl

end Decimal

end FilterLang
