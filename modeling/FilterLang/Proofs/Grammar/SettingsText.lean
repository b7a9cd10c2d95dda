import FilterLang.Grammar.SettingsText
import FilterLang.Proofs.Json.Writing

/-!
# Settings written and read again

Each setting is read from the value under its own key (`Settings.ofDocument?_eq_some_iff`), so to leave out a
key changes the setting of this key and no other.  Every character and every string comes back from its escapes
and every weight from its digits; an operator that is missing is written as `null`, which is not the same as
leaving it out.  Hence settings that are written are read as they were, and with keys left out as they were
up to the defaults of these keys (`Settings.ofText?_json`).
-/

namespace FilterLang

open Json (Document ReadBack ReadBackEntry)

/-- All results of a traversal are there, one for each place. -/
theorem mapM_eq_some_iff {α β : Type} {f : α → Option β} {as : List α} {bs : List β} :
    as.mapM f = some bs ↔ List.Forall₂ (fun a b => f a = some b) as bs := by
  induction as generalizing bs with
  | nil => simp [eq_comm]
  | cons a as ih =>
    simp only [List.mapM_cons, Option.bind_eq_bind, Option.bind_eq_some_iff, Option.pure_def,
      Option.some.injEq, List.forall₂_cons_left_iff, ih]
    constructor
    · rintro ⟨b, hb, bs, hbs, rfl⟩
      exact ⟨b, bs, hb, hbs, rfl⟩
    · rintro ⟨b, bs, hb, hbs, rfl⟩
      exact ⟨b, hb, bs, hbs, rfl⟩

/-! ## Operators -/

namespace OperatorSetting

/-- The document of an operator as it is written. -/
def document (s : OperatorSetting) : Document :=
  .object [(some "token", .string (some s.token)),
    (some "weight", .numeral ⟨false, naturalDigits s.weight.toNat, [], none⟩)]

theorem readBack_json (s : OperatorSetting) : ReadBack s.json s.document :=
  Json.readBack_object <| .cons ⟨rfl, Json.readBack_string s.token⟩ <|
    .cons ⟨rfl, Json.readBack_natural s.weight.toNat⟩ .nil

theorem ofDocument?_document (s : OperatorSetting) : ofDocument? s.document = some s := by
  have hweight : readWeight? (.numeral ⟨false, naturalDigits s.weight.toNat, [], none⟩) =
      some s.weight := by
    have hlt : s.weight.toNat < Nat.pow 2 32 := s.weight.toNat_lt
    simp only [readWeight?, digitsValue_naturalDigits, if_pos hlt, UInt32.ofNat_toNat]
  simp [ofDocument?, document, valuesUnder?, uniqueValue?, readText?, hweight]

end OperatorSetting

namespace Settings

/-! ## The value under a key -/

/-- The setting under a key, or its default. -/
def under? {α : Type} (entries : List (String × Document)) (key : String) (default : α)
    (read? : Document → Option α) : Option α :=
  (uniqueValue? entries key).bind (readOr default read?)

/-- A key that is left out gives the default; one that is kept gives what it gave. -/
theorem under?_filter {α : Type} {entries : List (String × Document)} {key : String} {default a : α}
    {read? : Document → Option α} (h : under? entries key default read? = some a) (kept : String → Bool) :
    under? (entries.filter fun e => kept e.1) key default read? =
      some (if kept key then a else default) := by
  -- whether an entry of this key is there depends on the key alone
  have hunique : uniqueValue? (entries.filter fun e => kept e.1) key =
      if kept key then uniqueValue? entries key else some none := by
    unfold uniqueValue?
    rw [List.filter_filter]
    by_cases hkept : kept key = true
    · have hsame : (entries.filter fun e => decide (e.1 = key) && kept e.1) =
          entries.filter fun e => decide (e.1 = key) := by
        refine List.filter_congr fun e _ => ?_
        by_cases hkey : e.1 = key
        · rw [hkey, hkept, Bool.and_true]
        · simp [hkey]
      rw [hsame, if_pos hkept]
    · have hnone : (entries.filter fun e => decide (e.1 = key) && kept e.1) = [] := by
        refine List.filter_eq_nil_iff.2 fun e _ => ?_
        by_cases hkey : e.1 = key
        · rw [hkey]
          simp [hkept]
        · simp [hkey]
      rw [hnone, if_neg hkept]
  rw [under?, hunique]
  split
  · exact h
  · rfl

/-- An entry of a document whose key is whole. -/
def wholeEntry (e : String × Document) : Option String × Document :=
  (some e.1, e.2)

/-- Where all keys are whole, the values of an object are looked up one key after the other. -/
theorem valuesUnder?_object_eq_some_iff {keys : List String} {entries : List (Option String × Document)}
    {values : List (Option Document)} :
    valuesUnder? keys (.object entries) = some values ↔
      ∃ es : List (String × Document), entries = es.map wholeEntry ∧
        List.Forall₂ (fun key value => uniqueValue? es key = some value) keys values := by
  let keyed (e : Option String × Document) : Option (String × Document) := e.1.map (·, e.2)
  have hvalues : valuesUnder? keys (.object entries) =
      (entries.mapM keyed).bind fun es => keys.mapM (uniqueValue? es) := rfl
  have hwhole : ∀ es, entries.mapM keyed = some es ↔ entries = es.map wholeEntry := by
    intro es
    have hentry : ∀ e e', keyed e = some e' ↔ e = wholeEntry e' := by
      rintro ⟨key, value⟩ ⟨key', value'⟩
      simp [keyed, wholeEntry]
    rw [mapM_eq_some_iff]
    simp only [hentry]
    rw [← List.forall₂_map_right_iff, List.forall₂_eq_eq_eq]
  simp only [hvalues, Option.bind_eq_some_iff, hwhole, mapM_eq_some_iff]

/-- Each setting is read from the value under its key, and of the other entries only the keys have to be
whole. -/
theorem ofDocument?_eq_some_iff {entries : List (Option String × Document)} {s : Settings} :
    ofDocument? (.object entries) = some s ↔
      ∃ es : List (String × Document), entries = es.map wholeEntry ∧
        under? es "quote" (Settings.quote {}) readChar? = some s.quote ∧
        under? es "booleans" (Settings.booleans {}) readFlag? = some s.booleans ∧
        under? es "decimal" (Settings.decimal {}) readDecimal? = some s.decimal ∧
        under? es "operators" (Settings.operators {}) readOperators? = some s.operators := by
  simp only [ofDocument?, Option.bind_eq_bind, Option.bind_eq_some_iff, valuesUnder?_object_eq_some_iff,
    under?]
  constructor
  · rintro ⟨values, ⟨es, hentries, hvalues⟩, h⟩
    -- there are four keys, so there are four values
    obtain _ | ⟨hquote, _ | ⟨hbooleans, _ | ⟨hdecimal, _ | ⟨hoperators, ⟨⟩⟩⟩⟩⟩ := hvalues
    simp only [Option.bind_eq_some_iff] at h
    obtain ⟨quote, hq, booleans, hb, decimal, hd, operators, ho, hs⟩ := h
    cases hs
    exact ⟨es, hentries, ⟨_, hquote, hq⟩, ⟨_, hbooleans, hb⟩, ⟨_, hdecimal, hd⟩, ⟨_, hoperators, ho⟩⟩
  · rintro ⟨es, hentries, ⟨_, hquote, hq⟩, ⟨_, hbooleans, hb⟩, ⟨_, hdecimal, hd⟩, ⟨_, hoperators, ho⟩⟩
    refine ⟨_, ⟨es, hentries, .cons hquote (.cons hbooleans (.cons hdecimal (.cons hoperators .nil)))⟩, ?_⟩
    simp only [Option.bind_eq_some_iff]
    exact ⟨_, hq, _, hb, _, hd, _, ho, rfl⟩

/-! ## Leaving out keys -/

/-- The settings with the defaults of the keys that are not kept. -/
def keep (kept : String → Bool) (s : Settings) : Settings where
  quote := if kept "quote" then s.quote else Settings.quote {}
  booleans := if kept "booleans" then s.booleans else Settings.booleans {}
  decimal := if kept "decimal" then s.decimal else Settings.decimal {}
  operators := if kept "operators" then s.operators else Settings.operators {}

/-- To leave out keys of an object gives the defaults of these keys, and all else is as before. -/
theorem ofDocument?_filter {entries : List (Option String × Document)} {s : Settings}
    (h : ofDocument? (.object entries) = some s) (kept : String → Bool) :
    ofDocument? (.object (entries.filter fun e => e.1.any kept)) = some (s.keep kept) := by
  obtain ⟨es, rfl, hquote, hbooleans, hdecimal, hoperators⟩ := ofDocument?_eq_some_iff.1 h
  refine ofDocument?_eq_some_iff.2 ⟨es.filter fun e => kept e.1, ?_, under?_filter hquote kept,
    under?_filter hbooleans kept, under?_filter hdecimal kept, under?_filter hoperators kept⟩
  rw [List.filter_map]
  rfl

/-! ## Written and read -/

/-- The entries of the settings as they are written, each with its document. -/
def documents (s : Settings) : List (String × Document) :=
  [("quote", .string (some (String.singleton s.quote))),
    ("booleans", .boolean s.booleans),
    ("decimal", (s.decimal.map OperatorSetting.document).getD .null),
    ("operators", .list (s.operators.map OperatorSetting.document))]

/-- Each setting is written as an entry that is read as its document. -/
theorem exists_entries (s : Settings) : ∃ entries, s.json = .object entries ∧
    List.Forall₂ ReadBackEntry entries (s.documents.map wholeEntry) := by
  have hdecimal : ReadBack ((s.decimal.map OperatorSetting.json).getD .null)
      ((s.decimal.map OperatorSetting.document).getD .null) := by
    cases s.decimal with
    | none => exact Json.readBack_null
    | some d => exact d.readBack_json
  have hoperators : ReadBack (.list (s.operators.map OperatorSetting.json))
      (.list (s.operators.map OperatorSetting.document)) := by
    refine Json.readBack_list (List.forall₂_map_left_iff.2 (List.forall₂_map_right_iff.2 ?_))
    exact List.forall₂_same.2 fun o _ => o.readBack_json
  exact ⟨_, rfl, .cons ⟨rfl, Json.readBack_string _⟩ <| .cons ⟨rfl, Json.readBack_boolean s.booleans⟩ <|
    .cons ⟨rfl, hdecimal⟩ <| .cons ⟨rfl, hoperators⟩ .nil⟩

/-- Reading gives each setting again. -/
theorem ofDocument?_documents (s : Settings) :
    ofDocument? (.object (s.documents.map wholeEntry)) = some s := by
  have hquote : readChar? (.string (some (String.singleton s.quote))) = some s.quote := by
    simp [readChar?, readText?]
  have hdecimal : readDecimal? ((s.decimal.map OperatorSetting.document).getD .null) = some s.decimal := by
    cases s.decimal with
    | none => rfl
    | some d =>
      show (OperatorSetting.ofDocument? d.document).map some = _
      rw [d.ofDocument?_document]
      rfl
  have hoperators : readOperators? (.list (s.operators.map OperatorSetting.document)) =
      some s.operators := by
    refine mapM_eq_some_iff.2 (List.forall₂_map_left_iff.2 (List.forall₂_same.2 ?_))
    exact fun o _ => o.ofDocument?_document
  refine ofDocument?_eq_some_iff.2 ⟨s.documents, rfl, ?_, ?_, ?_, ?_⟩
  · simpa [under?, uniqueValue?, documents, readOr] using hquote
  · simp [under?, uniqueValue?, documents, readOr, readFlag?]
  · simpa [under?, uniqueValue?, documents, readOr] using hdecimal
  · simpa [under?, uniqueValue?, documents, readOr] using hoperators

/-! ## The whole way -/

/-- Settings that are written and read again are the same: the quote may be any character, the tokens any
strings and the weights any 32-bit numbers.  A decimal operator that is missing, and no other, is
written as `null`.  If keys are left out of what is written, just their settings are the defaults, and so
it is with every object from which settings are read. -/
theorem ofText?_json (s : Settings) :
    ofText? (toString s.json) = some s ∧
      (s.json.field? "decimal" = some .null ↔ s.decimal = none) ∧
      (∀ kept, ofText? (toString (s.json.keep kept)) = some (s.keep kept)) ∧
      ∀ entries, ofDocument? (.object entries) = some s →
        ∀ kept, ofDocument? (.object (entries.filter fun e => e.1.any kept)) = some (s.keep kept) := by
  obtain ⟨entries, hjson, hentries⟩ := s.exists_entries
  have hread : ∀ {v d s'}, ReadBack v d → ofDocument? d = some s' → ofText? (toString v) = some s' := by
    intro v d s' hv hd
    rw [ofText?, hv.ofText?]
    exact hd
  refine ⟨?_, ?_, ?_, ?_⟩
  · rw [hjson]
    exact hread (Json.readBack_object hentries) s.ofDocument?_documents
  · have hfield : s.json.field? "decimal" = some ((s.decimal.map OperatorSetting.json).getD .null) := by
      simp [json, Json.field?, Keyed.findValue?]
    rw [hfield]
    cases s.decimal with
    | none => simp
    | some d => simp [OperatorSetting.json]
  · intro kept
    rw [hjson]
    exact hread (Json.readBack_object (Json.forall₂_readBackEntry_filter hentries kept))
      (ofDocument?_filter s.ofDocument?_documents kept)
  · intro entries h kept
    exact ofDocument?_filter h kept

/-- A double quote, a token of nothing but escapes and the largest weight come back; a decimal operator that is
missing stays so, but when its key is left out there is the usual one.  A key that means nothing does not
matter either. -/
theorem ofText?_json_escapes :
    let s : Settings := ⟨'"', false, none, [⟨"\"\\\n", 4294967295⟩]⟩
    ofText? (toString s.json) = some s ∧
      ofText? (toString (s.json.keep (· ≠ "decimal"))) = some { s with decimal := some ⟨".", 30⟩ } ∧
      ofDocument? (.object [(some "note", .null)]) = some {} := by
  intro s
  obtain ⟨hall, -, hkept, -⟩ := ofText?_json s
  refine ⟨hall, (hkept _).trans (by decide), ?_⟩
  have hnote : ofDocument? (.object [(some "note", .null), (some "booleans", .boolean false)]) =
      some { booleans := false } := by rfl
  obtain ⟨-, -, -, hentries⟩ := ofText?_json { booleans := false }
  exact hentries _ hnote (· ≠ "booleans")

end Settings

end FilterLang
