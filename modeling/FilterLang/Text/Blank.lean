import FilterLang.Text.Ranges

/-!
# Blank space

Blank is what separates the symbols of an expression: the characters with the Unicode property
`White_Space`.  `trim` takes the blanks off both ends of a text (`trim_eq_self`: and nothing else),
and `between?` takes off a pair of brackets or quotes (`between?_eq_some_iff`).
-/

namespace FilterLang.Text

/-- The 25 characters of the property `White_Space`. -/
def blankRanges : List (Nat × Nat) := [
  (0x9, 0xD), (0x20, 0x20), (0x85, 0x85), (0xA0, 0xA0), (0x1680, 0x1680), (0x2000, 0x200A),
  (0x2028, 0x2029), (0x202F, 0x202F), (0x205F, 0x205F), (0x3000, 0x3000)]

/-- Whether the character separates what stands around it. -/
def isBlank (c : Char) : Bool :=
  inRanges blankRanges c

/-- The text without the blanks at its end. -/
def trimEnd (cs : List Char) : List Char :=
  (cs.reverse.dropWhile isBlank).reverse

/-- The text without the blanks at its two ends. -/
def trim (cs : List Char) : List Char :=
  trimEnd (cs.dropWhile isBlank)

/-- The part between an opening and a closing character that stand at the two ends; one character
cannot be both ends at once. -/
def between? (opening closing : Char) : List Char → Option (List Char)
  | [] => none
  | c :: rest => if c = opening ∧ rest.getLast? = some closing then some rest.dropLast else none

theorem inOrder_blankRanges : inOrder blankRanges = true := by decide

/-- Brackets are taken off exactly where they stand at both ends. -/
theorem between?_eq_some_iff {opening closing : Char} {cs inner : List Char} :
    between? opening closing cs = some inner ↔ cs = opening :: (inner ++ [closing]) := by
  constructor
  · intro h
    match cs with
    | [] => simp [between?] at h
    | c :: rest =>
      simp only [between?, Option.ite_none_right_eq_some, Option.some.injEq] at h
      obtain ⟨⟨rfl, hlast⟩, rfl⟩ := h
      have hne : rest ≠ [] := by rintro rfl; simp at hlast
      rw [List.getLast?_eq_some_getLast hne, Option.some.injEq] at hlast
      rw [← hlast, List.dropLast_concat_getLast]
  · rintro rfl
    simp [between?]

theorem trimEnd_eq_self {cs : List Char} (h : ∀ c ∈ cs.getLast?, isBlank c = false) :
    trimEnd cs = cs := by
  rcases List.eq_nil_or_concat cs with rfl | ⟨pre, c, rfl⟩
  · rfl
  · have hc : isBlank c = false := h c (by simp)
    simp [trimEnd, hc]

/-- Trimming keeps a text that neither begins nor ends with a blank. -/
theorem trim_eq_self {cs : List Char} (hhead : ∀ c ∈ cs.head?, isBlank c = false)
    (hlast : ∀ c ∈ cs.getLast?, isBlank c = false) : trim cs = cs := by
  have hdrop : cs.dropWhile isBlank = cs := by
    cases cs with
    | nil => rfl
    | cons c rest => simp [hhead c rfl]
  rw [trim, hdrop, trimEnd_eq_self hlast]

end FilterLang.Text
