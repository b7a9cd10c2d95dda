import FilterLang.Grammar.Settings
import FilterLang.Proofs.Grammar.Reading

/-!
# What the grammars of settings read

Whatever the settings are, a text is read in one of five forms, and the settings only say which tokens,
which quote and whether truth values count (`Settings.accepts_iff_reads`).
-/

namespace FilterLang

open Text Pattern

variable {ρ : Type}

/-- The tokens of all operators, that of the decimal operator first. -/
def Settings.tokens (s : Settings) : List String :=
  (s.decimal.map OperatorSetting.token).toList ++ s.operators.map OperatorSetting.token

/-- How the two truth values are written. -/
def truthWords : List (List Char) :=
  ["true".toList, "false".toList]

theorem head_not_mem_of_mem_truthWords {c : Char} {cs : List Char} (h : c :: cs ∈ truthWords) :
    c ∉ cs := by
  rcases List.mem_cons.1 h with htrue | hfalse
  · obtain ⟨rfl, rfl⟩ := List.cons.inj htrue
    decide
  · obtain ⟨rfl, rfl⟩ := List.cons.inj (List.mem_singleton.1 hfalse)
    decide

/-- The texts that settings spell out: all tokens, and the truth values if they can be written. -/
def Settings.words (s : Settings) : List (List Char) :=
  s.tokens.map String.toList ++ (if s.booleans then truthWords else [])

theorem Settings.toList_mem_words {s : Settings} {t : String} (h : t ∈ s.tokens) : t.toList ∈ s.words :=
  List.mem_append_left _ (List.mem_map_of_mem h)

theorem Settings.mem_words_of_mem_truthWords {s : Settings} (hb : s.booleans = true) {w : List Char}
    (h : w ∈ truthWords) : w ∈ s.words := by
  rw [words, if_pos hb]
  exact List.mem_append_right _ h

/-- The forms in which a text can be read with these settings. -/
inductive Settings.Reads (s : Settings) (cs : List Char) : Prop where
  | digits (run : isDigitRun cs = true)
  | truth (allowed : s.booleans = true) (word : cs ∈ truthWords)
  | field (name : List Char) (whole : trim cs = '{' :: (name ++ ['}'])) (named : name ≠ [])
      (plain : ∀ c ∈ name, isNameChar c = true)
  | quoted (inner : List Char) (whole : trim cs = s.quote :: (inner ++ [s.quote]))
      (unquoted : s.quote ∉ inner)
  | token (t : String) (mem : t ∈ s.tokens) (whole : trim cs = t.toList)

theorem Grammar.accepts_iff {g : Grammar ρ} {cs : List Char} :
    g.accepts cs = true ↔ ∃ p ∈ g.patterns, (p.read? cs).isSome = true := by
  rw [accepts, read?, List.findSome?_isSome_iff]

theorem Settings.mem_patterns_iff {s : Settings} {point : ρ} {p : Pattern ρ} :
    p ∈ (s.grammar point).patterns ↔
      p = .integer ∨ (s.booleans = true ∧ p = .boolean) ∨
        (∃ d, s.decimal = some d ∧ .operator (d.transform [point]) = p) ∨
        p = .field ∨ p = .string s.quote ∨ ∃ o ∈ s.operators, .operator o.binary = p := by
  simp only [grammar, List.mem_append, List.mem_cons, List.not_mem_nil, or_false, Option.mem_toList,
    Option.map_eq_some_iff, List.mem_map, List.mem_ite_nil_right, or_assoc]

theorem Settings.mem_tokens_iff {s : Settings} {t : String} :
    t ∈ s.tokens ↔ (∃ d, s.decimal = some d ∧ d.token = t) ∨ ∃ o ∈ s.operators, o.token = t := by
  simp only [tokens, List.mem_append, Option.mem_toList, Option.map_eq_some_iff, List.mem_map]

theorem Settings.accepts_iff_reads {s : Settings} {point : ρ} {cs : List Char} :
    (s.grammar point).accepts cs = true ↔ s.Reads cs := by
  rw [Grammar.accepts_iff]
  constructor
  · rintro ⟨p, hp, hread⟩
    rcases mem_patterns_iff.1 hp with rfl | ⟨hb, rfl⟩ | ⟨d, hd, rfl⟩ | rfl | rfl | ⟨o, ho, rfl⟩
    · rw [isSome_read?_integer] at hread
      exact .digits hread
    · rw [isSome_read?_boolean] at hread
      exact .truth hb (by simpa [truthWords] using hread)
    · exact .token d.token (mem_tokens_iff.2 (.inl ⟨d, hd, rfl⟩)) ((isSome_read?_operator _ cs).1 hread)
    · obtain ⟨name, whole, named, plain⟩ := (isSome_read?_field cs).1 hread
      exact .field name whole named plain
    · obtain ⟨inner, whole, unquoted⟩ := (isSome_read?_string s.quote cs).1 hread
      exact .quoted inner whole unquoted
    · exact .token o.token (mem_tokens_iff.2 (.inr ⟨o, ho, rfl⟩)) ((isSome_read?_operator _ cs).1 hread)
  · intro h
    cases h with
    | digits run =>
      refine ⟨.integer, mem_patterns_iff.2 (.inl rfl), ?_⟩
      rw [isSome_read?_integer, run]
    | truth allowed word =>
      refine ⟨.boolean, mem_patterns_iff.2 (.inr (.inl ⟨allowed, rfl⟩)), ?_⟩
      rw [isSome_read?_boolean]
      simpa [truthWords] using word
    | field name whole named plain =>
      refine ⟨.field, mem_patterns_iff.2 (.inr (.inr (.inr (.inl rfl)))), ?_⟩
      exact (isSome_read?_field cs).2 ⟨name, whole, named, plain⟩
    | quoted inner whole unquoted =>
      refine ⟨.string s.quote, mem_patterns_iff.2 (.inr (.inr (.inr (.inr (.inl rfl))))), ?_⟩
      exact (isSome_read?_string s.quote cs).2 ⟨inner, whole, unquoted⟩
    | token t mem whole =>
      rcases mem_tokens_iff.1 mem with ⟨d, hd, rfl⟩ | ⟨o, ho, rfl⟩
      · refine ⟨.operator (d.transform [point]), ?_, ?_⟩
        · exact mem_patterns_iff.2 (.inr (.inr (.inl ⟨d, hd, rfl⟩)))
        · exact (isSome_read?_operator _ cs).2 whole
      · refine ⟨.operator o.binary, ?_, ?_⟩
        · exact mem_patterns_iff.2 (.inr (.inr (.inr (.inr (.inr ⟨o, ho, rfl⟩)))))
        · exact (isSome_read?_operator _ cs).2 whole

end FilterLang
