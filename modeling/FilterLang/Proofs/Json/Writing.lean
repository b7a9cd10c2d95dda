import FilterLang.Proofs.Json.Reading
import Mathlib.Data.List.Forall2

/-!
# Reading what was written

The text of a value is read as a document wherever it stands; `ReadBack v d` says that this document is `d`.  There
is one lemma for each way to make a value, so a value is read back part by part.  The text behind a value must
not go on with a number, since a number ends only where no further character can belong to it; a comma or
a closing bracket does not.
-/

namespace FilterLang.Json

open Document

/-- Whether the text of the value is read as the document, wherever it stands and whatever text follows that
does not go on with a number. -/
def ReadBack (v : Json) (d : Document) : Prop :=
  ∀ (fuel : Nat) (rest : List Char), 2 * v.toChars.length ≤ fuel → ¬Numeral.Continues rest →
    takeValue? fuel (v.toChars ++ rest) = some (d, rest)

variable {v : Json} {d : Document}

/-! ## Whole texts -/

theorem ReadBack.ofText? (h : ReadBack v d) : Document.ofText? (toString v) = some d := by
  have htext : (toString v).toList = v.toChars := String.toList_ofList
  have hvalue := h (2 * v.toChars.length + 2) [] (by omega) Numeral.not_continues_nil
  rw [List.append_nil] at hvalue
  rw [Document.ofText?, htext, Option.bind_eq_bind, hvalue]
  rfl

/-! ## Values without parts -/

theorem exists_succ_of_le {n fuel : Nat} (hpos : 0 < n) (h : 2 * n ≤ fuel) : ∃ f, fuel = f + 1 :=
  ⟨fuel - 1, by omega⟩

theorem readBack_null : ReadBack .null .null := by
  intro fuel rest hfuel _
  obtain ⟨f, rfl⟩ := exists_succ_of_le (by decide) hfuel
  rfl

theorem readBack_boolean (value : Bool) : ReadBack (.boolean value) (.boolean value) := by
  intro fuel rest hfuel _
  cases value with
  | true =>
    obtain ⟨f, rfl⟩ := exists_succ_of_le (by decide) hfuel
    rfl
  | false =>
    obtain ⟨f, rfl⟩ := exists_succ_of_le (by decide) hfuel
    rfl

theorem readBack_natural (n : Nat) :
    ReadBack (.number (.integer n)) (.numeral ⟨false, naturalDigits n, [], none⟩) := by
  intro fuel rest hfuel hrest
  have hchars : (Json.number (.integer n)).toChars =
      Numeral.plainChars ⟨false, naturalDigits n, [], none⟩ := by
    have hsign : ¬(n : Int) < 0 := by omega
    simp [toChars, Number.toChars, Numeral.plainChars, hsign]
  have hpos : 0 < (Json.number (.integer n)).toChars.length := by
    rw [hchars, List.length_pos_iff]
    simp [Numeral.plainChars, naturalDigits_ne_nil]
  obtain ⟨f, rfl⟩ := exists_succ_of_le hpos hfuel
  rw [hchars]
  exact takeValue?_plainChars (plain_naturalDigits n) hrest f

theorem takeString?_escaped (s : String) (rest : List Char) :
    takeString? (s.toList.flatMap escape ++ '"' :: rest) = some (some s, rest) := by
  obtain ⟨parts, hparts, hjoin⟩ := takeParts?_flatMap_escape s.toList rest
  rw [takeString?, hparts]
  simp [hjoin]

theorem readBack_string (s : String) : ReadBack (.string s) (.string (some s)) := by
  intro fuel rest hfuel _
  have hpos : 0 < (Json.string s).toChars.length := by simp [toChars, quoted]
  obtain ⟨f, rfl⟩ := exists_succ_of_le hpos hfuel
  have hchars : (Json.string s).toChars ++ rest = '"' :: (s.toList.flatMap escape ++ '"' :: rest) := by
    simp [toChars, quoted]
  have hskip : ∀ cs, skipSpace ('"' :: cs) = '"' :: cs := fun cs => rfl
  rw [hchars, takeValue?, hskip]
  simp [takeString?_escaped]

/-! ## Lists -/

/-- Items are read one by one; each of them has a comma or the closing bracket behind it. -/
theorem takeItems?_itemsChars {items : List Json} {ds : List Document} (h : List.Forall₂ ReadBack items ds)
    (hne : items ≠ []) {fuel : Nat} (hfuel : 2 * (itemsChars items).length + 1 ≤ fuel) (rest : List Char) :
    takeItems? fuel (itemsChars items ++ ']' :: rest) = some (ds, rest) := by
  induction h generalizing fuel with
  | nil => exact absurd rfl hne
  | @cons v d items ds hv hitems ih =>
    -- each item takes one step and is shorter than what is left, so two for each character are enough
    obtain ⟨f, rfl⟩ : ∃ f, fuel = f + 1 := ⟨fuel - 1, by omega⟩
    cases hitems with
    | nil =>
      have hlen : 2 * v.toChars.length ≤ f := by
        rw [itemsChars] at hfuel
        omega
      exact takeItems?_last (hv f (']' :: rest) hlen (Numeral.not_continues_cons (by decide)))
    | @cons w e items ds hw hitems =>
      have hchars : itemsChars (v :: w :: items) ++ ']' :: rest =
          v.toChars ++ ',' :: (itemsChars (w :: items) ++ ']' :: rest) := by
        simp [itemsChars]
      have hsize : (itemsChars (v :: w :: items)).length =
          v.toChars.length + ((itemsChars (w :: items)).length + 1) := by
        simp [itemsChars]
      rw [hchars]
      refine takeItems?_cons (hv f _ (by omega) (Numeral.not_continues_cons (by decide))) ?_
      exact ih (List.cons_ne_nil w items) (by omega)

theorem readBack_list {items : List Json} {ds : List Document} (h : List.Forall₂ ReadBack items ds) :
    ReadBack (.list items) (.list ds) := by
  intro fuel rest hfuel _
  have hchars : (Json.list items).toChars ++ rest = '[' :: (itemsChars items ++ ']' :: rest) := by
    simp [toChars]
  have hsize : (Json.list items).toChars.length = (itemsChars items).length + 2 := by
    simp [toChars]
  obtain ⟨f, rfl⟩ := exists_succ_of_le (by omega) hfuel
  rw [hchars]
  by_cases hne : items = []
  · subst hne
    cases h
    rfl
  · exact takeValue?_list (takeItems?_itemsChars h hne (by omega) rest)

/-! ## Objects -/

/-- An entry that is read as an entry of a document. -/
def ReadBackEntry (e : String × Json) (e' : Option String × Document) : Prop :=
  e'.1 = some e.1 ∧ ReadBack e.2 e'.2

theorem takeEntries?_entriesChars {entries : List (String × Json)} {es : List (Option String × Document)}
    (h : List.Forall₂ ReadBackEntry entries es) (hne : entries ≠ []) {fuel : Nat}
    (hfuel : 2 * (entriesChars entries).length + 1 ≤ fuel) (rest : List Char) :
    takeEntries? fuel (entriesChars entries ++ '}' :: rest) = some (es, rest) := by
  induction h generalizing fuel with
  | nil => exact absurd rfl hne
  | @cons entry entry' entries es hentry hentries ih =>
    obtain ⟨f, rfl⟩ : ∃ f, fuel = f + 1 := ⟨fuel - 1, by omega⟩
    obtain ⟨key, v⟩ := entry
    obtain ⟨key', d⟩ := entry'
    obtain ⟨hkey, hv⟩ := hentry
    dsimp only at hkey hv
    subst hkey
    cases hentries with
    | nil =>
      have hchars : entriesChars [(key, v)] ++ '}' :: rest =
          '"' :: (key.toList.flatMap escape ++ '"' :: ':' :: (v.toChars ++ '}' :: rest)) := by
        simp [entriesChars, quoted]
      have hlen : 2 * v.toChars.length ≤ f := by
        simp only [entriesChars, List.length_append, List.length_cons] at hfuel
        omega
      rw [hchars]
      exact takeEntries?_last (takeString?_escaped key _)
        (hv f _ hlen (Numeral.not_continues_cons (by decide)))
    | @cons next next' entries es hnext hentries =>
      have hchars : entriesChars ((key, v) :: next :: entries) ++ '}' :: rest =
          '"' :: (key.toList.flatMap escape ++ '"' ::
            ':' :: (v.toChars ++ ',' :: (entriesChars (next :: entries) ++ '}' :: rest))) := by
        simp [entriesChars, quoted]
      have hsize : v.toChars.length + (entriesChars (next :: entries)).length + 1 ≤
          (entriesChars ((key, v) :: next :: entries)).length := by
        simp only [entriesChars, List.length_append, List.length_cons]
        omega
      rw [hchars]
      refine takeEntries?_cons (takeString?_escaped key _)
        (hv f _ (by omega) (Numeral.not_continues_cons (by decide))) ?_
      exact ih (List.cons_ne_nil next entries) (by omega)

theorem readBack_object {entries : List (String × Json)} {es : List (Option String × Document)}
    (h : List.Forall₂ ReadBackEntry entries es) : ReadBack (.object entries) (.object es) := by
  intro fuel rest hfuel _
  have hchars : (Json.object entries).toChars ++ rest = '{' :: (entriesChars entries ++ '}' :: rest) := by
    simp [toChars]
  have hsize : (Json.object entries).toChars.length = (entriesChars entries).length + 2 := by
    simp [toChars]
  obtain ⟨f, rfl⟩ := exists_succ_of_le (by omega) hfuel
  rw [hchars]
  by_cases hne : entries = []
  · subst hne
    cases h
    rfl
  · have hentries := takeEntries?_entriesChars h hne (show 2 * _ + 1 ≤ f by omega) rest
    obtain ⟨keyed, hquote⟩ : ∃ keyed, entriesChars entries ++ '}' :: rest = '"' :: keyed := by
      cases entries with
      | nil => exact absurd rfl hne
      | cons e entries => cases entries <;> exact ⟨_, rfl⟩
    rw [hquote] at hentries ⊢
    exact takeValue?_object hentries

/-- The object with only those of its entries whose keys are kept. -/
def keep (kept : String → Bool) : Json → Json
  | object entries => object (entries.filter fun e => kept e.1)
  | other => other

theorem forall₂_readBackEntry_filter {entries : List (String × Json)} {es : List (Option String × Document)}
    (h : List.Forall₂ ReadBackEntry entries es) (kept : String → Bool) :
    List.Forall₂ ReadBackEntry (entries.filter fun e => kept e.1) (es.filter fun e => e.1.any kept) := by
  have hkept : ∀ ⦃e e'⦄, ReadBackEntry e e' → (kept e.1 = true ↔ e'.1.any kept = true) := by
    intro e e' hentry
    rw [hentry.1, Option.any_some]
  exact List.rel_filter hkept h

end FilterLang.Json
