/-!
# Strings in JSON text

Between its quotes a string is written character by character; some characters are escaped, and an
escape with four hexadecimal digits gives one UTF-16 code unit, so that a character above `U+FFFF`
takes two of them.  `takeParts?` reads up to the closing quote without asking whether the code units
pair up, which `joinParts?` decides.  `takeParts?_flatMap_escape` says that together they give back
what `quoted` wrote.
-/

namespace FilterLang.Json

/-! ## Writing -/

/-- A digit below sixteen. -/
def hexDigit (n : Nat) : Char :=
  if n < 10 then Char.ofNat ('0'.toNat + n) else Char.ofNat ('a'.toNat + (n - 10))

/-- A character as it is written in a string: quotes, backslashes and controls are escaped, and all
else stands for itself. -/
def escape (c : Char) : List Char :=
  if c = '"' then ['\\', '"']
  else if c = '\\' then ['\\', '\\']
  else if c = '\n' then ['\\', 'n']
  else if c = '\r' then ['\\', 'r']
  else if c = '\t' then ['\\', 't']
  else if c = '\x08' then ['\\', 'b']
  else if c = '\x0c' then ['\\', 'f']
  else if c.toNat < 32 then
    ['\\', 'u', '0', '0', hexDigit (c.toNat / 16), hexDigit (c.toNat % 16)]
  else [c]

/-- A string with its quotes. -/
def quoted (cs : List Char) : List Char :=
  '"' :: (cs.flatMap escape ++ ['"'])

/-! ## Reading -/

/-- What one place of a string gives: a character, or a code unit in hexadecimal. -/
inductive StringPart where
  | char (c : Char)
  | unit (n : Nat)
deriving DecidableEq

/-- The value of a hexadecimal digit in either case. -/
def hexValue? (c : Char) : Option Nat :=
  if '0' ≤ c ∧ c ≤ '9' then some (c.toNat - '0'.toNat)
  else if 'a' ≤ c ∧ c ≤ 'f' then some (c.toNat - 'a'.toNat + 10)
  else if 'A' ≤ c ∧ c ≤ 'F' then some (c.toNat - 'A'.toNat + 10)
  else none

/-- The value of four hexadecimal digits. -/
def hexUnit? (a b c d : Char) : Option Nat := do
  return 4096 * (← hexValue? a) + 256 * (← hexValue? b) + 16 * (← hexValue? c) + (← hexValue? d)

/-- The character behind a backslash, unless it is the letter that introduces a code unit. -/
def unescape? : Char → Option Char
  | '"' => some '"'
  | '\\' => some '\\'
  | '/' => some '/'
  | 'b' => some '\x08'
  | 'f' => some '\x0c'
  | 'n' => some '\n'
  | 'r' => some '\r'
  | 't' => some '\t'
  | _ => none

/-- Reads a string behind its opening quote, and gives the text behind the closing one.  Controls have
to be escaped. -/
def takeParts? : List Char → Option (List StringPart × List Char)
  | [] => none
  | '"' :: rest => some ([], rest)
  | '\\' :: 'u' :: a :: b :: c :: d :: rest => do
    let n ← hexUnit? a b c d
    let (parts, rest) ← takeParts? rest
    return (.unit n :: parts, rest)
  | '\\' :: c :: rest => do
    let c ← unescape? c
    let (parts, rest) ← takeParts? rest
    return (.char c :: parts, rest)
  | c :: rest =>
    if c.toNat < 32 then none
    else do
      let (parts, rest) ← takeParts? rest
      return (.char c :: parts, rest)

/-- Whether the code unit is the first half of a character above `U+FFFF`. -/
def isHighHalf (n : Nat) : Bool := 0xD800 ≤ n && n < 0xDC00

/-- Whether the code unit is the second half of a character above `U+FFFF`. -/
def isLowHalf (n : Nat) : Bool := 0xDC00 ≤ n && n < 0xE000

/-- The characters of a string, if no half of a character stands alone. -/
def joinParts? : List StringPart → Option (List Char)
  | [] => some []
  | .char c :: rest => (joinParts? rest).map (c :: ·)
  | .unit n :: .unit m :: rest =>
    if isHighHalf n then
      if isLowHalf m then
        (joinParts? rest).map (Char.ofNat (0x10000 + 0x400 * (n - 0xD800) + (m - 0xDC00)) :: ·)
      else none
    else if isLowHalf n then none
    else (joinParts? (.unit m :: rest)).map (Char.ofNat n :: ·)
  | .unit n :: rest =>
    if isHighHalf n || isLowHalf n then none
    else (joinParts? rest).map (Char.ofNat n :: ·)

/-! ## Reading what was written -/

theorem hexValue?_hexDigit {n : Nat} (h : n < 16) : hexValue? (hexDigit n) = some n := by
  have hall : ∀ i : Fin 16, hexValue? (hexDigit i) = some i.val := by decide
  exact hall ⟨n, h⟩

/-- A code unit that is no half of a character is a character. -/
theorem joinParts?_unit {n : Nat} (hhigh : isHighHalf n = false) (hlow : isLowHalf n = false)
    (rest : List StringPart) :
    joinParts? (.unit n :: rest) = (joinParts? rest).map (Char.ofNat n :: ·) := by
  match rest with
  | [] => simp [joinParts?, hhigh, hlow]
  | .char c :: rest => simp [joinParts?, hhigh, hlow]
  | .unit m :: rest => simp [joinParts?, hhigh, hlow]

/-- What is written for a character reads back as one place of a string, which stands for that
character. -/
theorem takeParts?_escape (c : Char) :
    ∃ part, (∀ parts, joinParts? (part :: parts) = (joinParts? parts).map (c :: ·)) ∧
      ∀ rest, takeParts? (escape c ++ rest) =
        (takeParts? rest).map fun (parts, rest) => (part :: parts, rest) := by
  by_cases hshort : c = '"' ∨ c = '\\' ∨ c = '\n' ∨ c = '\r' ∨ c = '\t' ∨ c = '\x08' ∨ c = '\x0c'
  · refine ⟨.char c, fun parts => rfl, fun rest => ?_⟩
    rcases hshort with rfl | rfl | rfl | rfl | rfl | rfl | rfl <;>
      cases h : takeParts? rest <;> simp [escape, takeParts?, unescape?, h]
  · simp only [not_or] at hshort
    obtain ⟨h1, h2, h3, h4, h5, h6, h7⟩ := hshort
    by_cases hcontrol : c.toNat < 32
    · have hunit : hexUnit? '0' '0' (hexDigit (c.toNat / 16)) (hexDigit (c.toNat % 16)) =
          some c.toNat := by
        have hzero : hexValue? '0' = some 0 := by decide
        simp only [hexUnit?, hzero, hexValue?_hexDigit (show c.toNat / 16 < 16 by omega),
          hexValue?_hexDigit (Nat.mod_lt c.toNat (by decide : 16 > 0)), Option.bind_eq_bind,
          Option.bind_some, Option.pure_def, Option.some.injEq]
        omega
      refine ⟨.unit c.toNat, fun parts => ?_, fun rest => ?_⟩
      · rw [joinParts?_unit (by simp [isHighHalf]; omega) (by simp [isLowHalf]; omega),
          Char.ofNat_toNat]
      · cases h : takeParts? rest <;>
          simp [escape, h1, h2, h3, h4, h5, h6, h7, hcontrol, takeParts?, hunit, h]
    · refine ⟨.char c, fun parts => rfl, fun rest => ?_⟩
      cases h : takeParts? rest <;>
        simp [escape, h1, h2, h3, h4, h5, h6, h7, hcontrol, takeParts?, h]

/-- Reading undoes writing, whatever stands behind the closing quote. -/
theorem takeParts?_flatMap_escape (cs rest : List Char) :
    ∃ parts, takeParts? (cs.flatMap escape ++ '"' :: rest) = some (parts, rest) ∧
      joinParts? parts = some cs := by
  induction cs with
  | nil => exact ⟨[], by simp [takeParts?], rfl⟩
  | cons c cs ih =>
    obtain ⟨parts, hread, hjoin⟩ := ih
    obtain ⟨part, hpart, hescape⟩ := takeParts?_escape c
    refine ⟨part :: parts, ?_, by rw [hpart, hjoin]; rfl⟩
    rw [List.flatMap_cons, List.append_assoc, hescape, hread]
    rfl

end FilterLang.Json
