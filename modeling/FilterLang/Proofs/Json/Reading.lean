import FilterLang.Json.Document
import FilterLang.Proofs.Json.Numeral
import FilterLang.Proofs.Number.Pointed
import Mathlib.Data.List.DropRight

/-!
# Reading JSON text

A number with a point is a plain numeral (`PointedNumber.plain_numeral`).  A list is read by reading its items
one by one, and an object by reading its entries (`Document.takeItems?_cons`, `Document.takeEntries?_cons`), so
a text is read from the inside out, one bracket at a time.
-/

namespace FilterLang

open Json

/-! ## Numbers -/

namespace PointedNumber

/-- The number as JSON has it. -/
def numeral (n : PointedNumber) : Numeral where
  negative := false
  whole := n.whole
  fraction := n.fraction
  exponent := none

theorem plain_numeral (n : PointedNumber) : n.numeral.Plain where
  isDigitRun_whole := n.isDigitRun_whole
  eq_zero_of_head := n.eq_zero_of_head
  isDigit_fraction := by
    intro c hc
    exact isDigit_of_mem_run n.isDigitRun_fraction hc
  exponent := rfl

theorem plainChars_numeral (n : PointedNumber) : n.numeral.plainChars = n.chars := by
  have hne : n.fraction.isEmpty = false :=
    List.isEmpty_eq_false_iff.2 (isDigitRun_iff.1 n.isDigitRun_fraction).1
  simp [Json.Numeral.plainChars, numeral, hne, chars]

end PointedNumber

/-! ## Values -/

namespace Json.Document

variable {fuel : Nat} {cs rest : List Char} {d : Document}

theorem skipSpace_skipSpace (cs : List Char) : skipSpace (skipSpace cs) = skipSpace cs :=
  List.dropWhile_idempotent isSpace cs

theorem takeValue?_skipSpace (fuel : Nat) (cs : List Char) :
    takeValue? fuel (skipSpace cs) = takeValue? fuel cs := by
  cases fuel with
  | zero => rfl
  | succ fuel => rw [takeValue?, takeValue?, skipSpace_skipSpace]

/-- A plain numeral is read to its end as a value, if the text behind it does not go on with the number. -/
theorem takeValue?_plainChars {n : Numeral} (h : n.Plain) (hrest : ¬Numeral.Continues rest) (fuel : Nat) :
    takeValue? (fuel + 1) (n.plainChars ++ rest) = some (.numeral n, rest) := by
  have htake := h.take?_append hrest
  obtain ⟨c, cs, hcons, hc⟩ := h.exists_cons
  rw [hcons, List.cons_append] at htake ⊢
  -- neither a digit nor a sign begins a value of another kind
  have hne : ∀ other : Char, other.isDigit = false ∧ other ≠ '-' → c ≠ other := by
    rintro other ⟨hdigit, hsign⟩ rfl
    rcases hc with hminus | hc
    · exact hsign hminus
    · exact ne_of_isDigit hc c hdigit rfl
  have hskip : skipSpace (c :: (cs ++ rest)) = c :: (cs ++ rest) := by
    have hspace : ¬isSpace c = true := by
      simp [isSpace, hne ' ' (by decide), hne '\n' (by decide), hne '\t' (by decide), hne '\r' (by decide)]
    rw [skipSpace, List.dropWhile_cons_of_neg hspace]
  rw [takeValue?, hskip]
  simp only [hne 'n' (by decide), hne 't' (by decide), hne 'f' (by decide), hne '"' (by decide),
    hne '[' (by decide), hne '{' (by decide), if_false, htake]
  rfl

/-! ## Lists -/

variable {items : List Document}

/-- The last item stands in front of the closing bracket. -/
theorem takeItems?_last (hitem : takeValue? fuel cs = some (d, ']' :: rest)) :
    takeItems? (fuel + 1) cs = some ([d], rest) := by
  have hend : skipSpace (']' :: rest) = ']' :: rest := rfl
  rw [takeItems?, hitem]
  simp only [Option.bind_eq_bind, Option.bind_some, hend]
  rfl

theorem takeItems?_cons {next : List Char} (hitem : takeValue? fuel cs = some (d, ',' :: next))
    (hitems : takeItems? fuel next = some (items, rest)) :
    takeItems? (fuel + 1) cs = some (d :: items, rest) := by
  have hcomma : skipSpace (',' :: next) = ',' :: next := rfl
  rw [takeItems?, hitem]
  simp only [Option.bind_eq_bind, Option.bind_some, hcomma, hitems]
  rfl

/-- No value begins with a closing bracket. -/
theorem takeItems?_ne_closed (hitems : takeItems? fuel cs = some (items, rest)) :
    takeChar ']' (skipSpace cs) = (false, skipSpace cs) := by
  refine takeChar_of_head? ?_
  intro hhead
  obtain ⟨closed, hclosed⟩ := List.head?_eq_some_iff.1 hhead
  cases fuel with
  | zero => cases hitems
  | succ fuel =>
    have hvalue : takeValue? fuel cs = none := by
      rw [← takeValue?_skipSpace, hclosed]
      cases fuel <;> rfl
    rw [takeItems?, hvalue] at hitems
    cases hitems

theorem takeValue?_list (hitems : takeItems? fuel cs = some (items, rest)) :
    takeValue? (fuel + 1) ('[' :: cs) = some (.list items, rest) := by
  have hskip : skipSpace ('[' :: cs) = '[' :: cs := rfl
  have hspace : takeItems? fuel (skipSpace cs) = takeItems? fuel cs := by
    cases fuel with
    | zero => rfl
    | succ fuel => rw [takeItems?, takeItems?, takeValue?_skipSpace]
  rw [takeValue?, hskip]
  simp [takeItems?_ne_closed hitems, hspace, hitems]

/-! ## Objects -/

variable {key : Option String} {keyed : List Char} {entries : List (Option String × Document)}

/-- The last entry stands in front of the closing brace. -/
theorem takeEntries?_last (hkey : takeString? keyed = some (key, ':' :: cs))
    (hvalue : takeValue? fuel cs = some (d, '}' :: rest)) :
    takeEntries? (fuel + 1) ('"' :: keyed) = some ([(key, d)], rest) := by
  have hquote : skipSpace ('"' :: keyed) = '"' :: keyed := rfl
  have hcolon : skipSpace (':' :: cs) = ':' :: cs := rfl
  have hend : skipSpace ('}' :: rest) = '}' :: rest := rfl
  simp only [takeEntries?, hquote, hkey, Option.bind_eq_bind, Option.bind_some, hcolon, hvalue, hend]
  rfl

theorem takeEntries?_cons {next : List Char} (hkey : takeString? keyed = some (key, ':' :: cs))
    (hvalue : takeValue? fuel cs = some (d, ',' :: next))
    (hentries : takeEntries? fuel next = some (entries, rest)) :
    takeEntries? (fuel + 1) ('"' :: keyed) = some ((key, d) :: entries, rest) := by
  have hquote : skipSpace ('"' :: keyed) = '"' :: keyed := rfl
  have hcolon : skipSpace (':' :: cs) = ':' :: cs := rfl
  have hcomma : skipSpace (',' :: next) = ',' :: next := rfl
  simp only [takeEntries?, hquote, hkey, Option.bind_eq_bind, Option.bind_some, hcolon, hvalue, hcomma,
    hentries]
  rfl

theorem takeValue?_object (hentries : takeEntries? fuel ('"' :: keyed) = some (entries, rest)) :
    takeValue? (fuel + 1) ('{' :: '"' :: keyed) = some (.object entries, rest) := by
  have hskip : skipSpace ('{' :: '"' :: keyed) = '{' :: '"' :: keyed := rfl
  have hnext : takeChar '}' (skipSpace ('"' :: keyed)) = (false, '"' :: keyed) := rfl
  rw [takeValue?, hskip]
  simp [hnext, hentries]

/-! ## Texts -/

/-- A text is read with more fuel than it has characters. -/
theorem ofText?_of_takeValue? {text : String} {d : Document}
    (h : ∀ fuel, text.toList.length ≤ fuel → takeValue? fuel text.toList = some (d, [])) :
    ofText? text = some d := by
  rw [ofText?, Option.bind_eq_bind, h _ (by omega)]
  rfl

end Json.Document

end FilterLang
