import FilterLang.Compile
import FilterLang.Proofs.Grammar.Pieces
import FilterLang.Proofs.Grammar.Reading

/-!
# Tokens of the standard grammar

A token is a unit of the standard grammar in the form in which it is written.  Alone it is read as that
unit (`Token.read?_chars`), no piece ends inside it (`Token.unbroken`), and behind it a piece ends
whatever follows, unless digits follow digits (`Token.exists_piece`).
-/

namespace FilterLang

open Text Pattern

/-! ## What is written -/

/-- The operators of the standard grammar, the one that makes decimals first. -/
def standardOperators : List (Operator PointRule) :=
  [⟨".", 30, .transform [.join]⟩, ⟨"=", 20, .binary⟩, ⟨"and", 10, .binary⟩, ⟨"or", 10, .binary⟩]

/-- A unit of the standard grammar as it is written. -/
inductive Token where
  /-- Any number of ASCII digits but none -/
  | digits (run : List Char) (isRun : isDigitRun run = true)
  | truth (value : Bool)
  | sign (op : Operator PointRule) (standard : op ∈ standardOperators)
  /-- A name in braces -/
  | field (name : List Char) (named : name ≠ []) (plain : name.all isNameChar = true)
  /-- Any text without a quote, between two quotes -/
  | quoted (inner : List Char) (unquoted : '\'' ∉ inner)

namespace Token

/-- How a truth value is written. -/
def truthText (value : Bool) : String :=
  if value then "true" else "false"

/-- The characters of the token. -/
def chars : Token → List Char
  | digits run _ => run
  | truth value => (truthText value).toList
  | sign op _ => op.token.toList
  | field name _ _ => '{' :: (name ++ ['}'])
  | quoted inner _ => '\'' :: (inner ++ ['\''])

/-- The unit that the token stands for; digits that fit no 64-bit integer are refused as a whole. -/
def unit : Token → Except ExprError (Lexeme PointRule)
  | digits run _ =>
    let text := String.ofList run
    let n := digitsValue run
    if n < Nat.pow 2 63 then .ok (.operand (.literal text (.integer (Int64.ofNat n))))
    else .error (.integerOverflow text)
  | truth value => .ok (.operand (.literal (truthText value) (.boolean value)))
  | sign op _ => .ok (.operator op)
  | field name _ _ => .ok (.operand (.field (String.ofList name)))
  | quoted inner _ =>
    .ok (.operand (.literal (String.ofList ('\'' :: (inner ++ ['\'']))) (.string (String.ofList inner))))

/-- Whether the token is a run of digits, which more digits would continue. -/
def isDigits : Token → Bool
  | digits _ _ => true
  | truth _ => false
  | sign _ _ => false
  | field _ _ _ => false
  | quoted _ _ => false

/-- The pattern that reads the token. -/
def pattern : Token → Pattern PointRule
  | digits _ _ => .integer
  | truth _ => .boolean
  | sign op _ => .operator op
  | field _ _ _ => .field
  | quoted _ _ => .string '\''

theorem isDigits_of_pattern {t : Token} (h : t.pattern = .integer) : t.isDigits = true := by
  cases t with
  | digits _ _ => rfl
  | truth _ => cases h
  | sign _ _ => cases h
  | field _ _ _ => cases h
  | quoted _ _ => cases h

/-! ## The first character -/

theorem patterns_standard : Grammar.standard.patterns =
    [.integer, .boolean, .operator ⟨".", 30, .transform [.join]⟩, .field, .string '\'',
      .operator ⟨"=", 20, .binary⟩, .operator ⟨"and", 10, .binary⟩, .operator ⟨"or", 10, .binary⟩] :=
  rfl

theorem isBlank_eq_false_of_isDigit {c : Char} (h : c.isDigit = true) : isBlank c = false := by
  rw [Bool.eq_false_iff]
  intro hblank
  have halnum : isAlphanumeric c = true := isAlphanumeric_of_isAlphanum (by simp [Char.isAlphanum, h])
  rw [isAlphanumeric_eq_false_of_isBlank hblank] at halnum
  cases halnum

/-- The character can begin what the pattern reads, and decides for it: no other pattern of the
standard grammar begins so. -/
structure Decides (p : Pattern PointRule) (c : Char) : Prop where
  not_blank : isBlank c = false
  integer_of_isDigit : c.isDigit = true → p = .integer
  others : ∀ q ∈ Grammar.standard.patterns, q = p ∨ q.mayBegin c = false

instance (p : Pattern PointRule) (c : Char) : Decidable (Decides p c) :=
  decidable_of_iff
    (isBlank c = false ∧ (c.isDigit = true → p = .integer) ∧
      ∀ q ∈ Grammar.standard.patterns, q = p ∨ q.mayBegin c = false)
    ⟨fun h => ⟨h.1, h.2.1, h.2.2⟩, fun h => ⟨h.not_blank, h.integer_of_isDigit, h.others⟩⟩

theorem decides_digit {c : Char} (h : c.isDigit = true) : Decides .integer c := by
  refine ⟨isBlank_eq_false_of_isDigit h, fun _ => rfl, ?_⟩
  have hne := ne_of_isDigit h
  -- what the other patterns begin with is no digit
  simp [patterns_standard, mayBegin, hne 't' rfl, hne 'f' rfl, hne '{' rfl, hne '\'' rfl, (hne '.' rfl).symm,
    (hne '=' rfl).symm, (hne 'a' rfl).symm, (hne 'o' rfl).symm]

theorem decides_operator {op : Operator PointRule} (h : op ∈ standardOperators) :
    ∃ c cs, op.token.toList = c :: cs ∧ Decides (.operator op) c := by
  simp only [standardOperators, List.mem_cons, List.not_mem_nil, or_false] at h
  rcases h with rfl | rfl | rfl | rfl
  · exact ⟨'.', _, rfl, by decide⟩
  · exact ⟨'=', _, rfl, by decide⟩
  · exact ⟨'a', _, rfl, by decide⟩
  · exact ⟨'o', _, rfl, by decide⟩

theorem exists_decides (t : Token) : ∃ c cs, t.chars = c :: cs ∧ Decides t.pattern c := by
  cases t with
  | digits run isRun =>
    cases run with
    | nil => cases isRun
    | cons c cs =>
      exact ⟨c, cs, rfl, decides_digit (isDigit_of_mem_run isRun List.mem_cons_self)⟩
  | truth value =>
    cases value with
    | false => exact ⟨'f', _, rfl, (by decide : Decides .boolean 'f')⟩
    | true => exact ⟨'t', _, rfl, (by decide : Decides .boolean 't')⟩
  | sign op standard => exact decides_operator standard
  | field name _ _ => exact ⟨'{', _, rfl, (by decide : Decides .field '{')⟩
  | quoted inner _ => exact ⟨'\'', _, rfl, (by decide : Decides (.string '\'') '\'')⟩

theorem pattern_mem (t : Token) : t.pattern ∈ Grammar.standard.patterns := by
  cases t with
  | digits _ _ => exact (by decide : .integer ∈ Grammar.standard.patterns)
  | truth _ => exact (by decide : .boolean ∈ Grammar.standard.patterns)
  | sign op standard =>
    exact (by decide : ∀ op ∈ standardOperators, .operator op ∈ Grammar.standard.patterns) op standard
  | field _ _ _ => exact (by decide : .field ∈ Grammar.standard.patterns)
  | quoted _ _ => exact (by decide : .string '\'' ∈ Grammar.standard.patterns)

/-- Of texts that begin like a token, its pattern alone decides. -/
theorem read?_eq_pattern (t : Token) {cs : List Char} (h : cs.head? = t.chars.head?) :
    Grammar.standard.read? cs = t.pattern.read? cs := by
  obtain ⟨c, rest, hchars, hc⟩ := exists_decides t
  rw [hchars] at h
  cases cs with
  | nil => cases h
  | cons d cs =>
    cases h
    exact Grammar.read?_eq_of_mayBegin (pattern_mem t) hc.not_blank hc.others cs

theorem chars_ne_nil (t : Token) : t.chars ≠ [] := by
  obtain ⟨c, cs, hchars, -⟩ := exists_decides t
  rw [hchars]
  exact List.cons_ne_nil c cs

theorem read?_append (t : Token) (more : List Char) :
    Grammar.standard.read? (t.chars ++ more) = t.pattern.read? (t.chars ++ more) :=
  read?_eq_pattern t (List.head?_append_of_ne_nil _ (chars_ne_nil t))

/-! ## A token alone -/

theorem read?_pattern_chars (t : Token) : t.pattern.read? t.chars = some t.unit := by
  cases t with
  | digits run isRun =>
    show read? integer run = _
    rw [read?, readInteger?, if_pos isRun, Option.map_some, unit]
    split
    · rfl
    · rfl
  | truth value => cases value <;> rfl
  | sign op standard =>
    have htrim : ∀ op ∈ standardOperators, String.ofList (trim op.token.toList) = op.token := by decide
    show read? (operator op) op.token.toList = _
    rw [read?, if_pos (htrim op standard), unit]
  | field name named plain =>
    have htrim : trim ('{' :: (name ++ ['}'])) = '{' :: (name ++ ['}']) :=
      trim_cons_append_singleton (by decide) name (by decide)
    have hname : between? '{' '}' ('{' :: (name ++ ['}'])) = some name := between?_eq_some_iff.2 rfl
    simp only [pattern, chars, unit, read?, readField?, htrim, hname, Option.bind_eq_bind,
      Option.bind_some, if_pos (And.intro named plain), Option.map_some]
  | quoted inner unquoted =>
    have htrim : trim ('\'' :: (inner ++ ['\''])) = '\'' :: (inner ++ ['\'']) :=
      trim_cons_append_singleton (by decide) inner (by decide)
    have hinner : between? '\'' '\'' ('\'' :: (inner ++ ['\''])) = some inner :=
      between?_eq_some_iff.2 rfl
    simp only [pattern, chars, unit, read?, readString?, htrim, hinner, Option.bind_eq_bind,
      Option.bind_some, if_neg unquoted, Option.map_some]

/-- Read for itself, a token is the unit that it stands for. -/
theorem read?_chars (t : Token) : Grammar.standard.read? t.chars = some t.unit := by
  rw [read?_eq_pattern t rfl, read?_pattern_chars]

/-! ## Every unit is a token -/

/-- What a pattern of the standard grammar reads is a token, but for blanks around it. -/
theorem exists_pattern_eq {p : Pattern PointRule} (hp : p ∈ Grammar.standard.patterns) {cs : List Char}
    (hread : (p.read? cs).isSome = true) :
    ∃ t : Token, t.pattern = p ∧ (cs = t.chars ∨ p.trims = true ∧ trim cs = trim t.chars) := by
  have hsign : ∀ op ∈ standardOperators, (read? (.operator op) cs).isSome = true →
      ∃ t : Token, t.pattern = .operator op ∧
        (cs = t.chars ∨ trims (.operator op) = true ∧ trim cs = trim t.chars) := by
    intro op standard hread
    have htoken : ∀ op ∈ standardOperators, trim op.token.toList = op.token.toList := by decide
    refine ⟨.sign op standard, rfl, .inr ⟨rfl, ?_⟩⟩
    rw [(isSome_read?_operator op cs).1 hread]
    exact (htoken op standard).symm
  simp only [patterns_standard, List.mem_cons, List.not_mem_nil, or_false] at hp
  rcases hp with rfl | rfl | rfl | rfl | rfl | rfl | rfl | rfl
  · rw [isSome_read?_integer] at hread
    exact ⟨.digits cs hread, rfl, .inl rfl⟩
  · rcases (isSome_read?_boolean cs).1 hread with rfl | rfl
    · exact ⟨.truth true, rfl, .inl rfl⟩
    · exact ⟨.truth false, rfl, .inl rfl⟩
  · exact hsign _ (by decide) hread
  · obtain ⟨name, htrim, named, plain⟩ := (isSome_read?_field cs).1 hread
    refine ⟨.field name named (List.all_eq_true.2 plain), rfl, .inr ⟨rfl, ?_⟩⟩
    rw [htrim]
    exact (trim_cons_append_singleton (by decide) name (by decide)).symm
  · obtain ⟨inner, htrim, unquoted⟩ := (isSome_read?_string '\'' cs).1 hread
    refine ⟨.quoted inner unquoted, rfl, .inr ⟨rfl, ?_⟩⟩
    rw [htrim]
    exact (trim_cons_append_singleton (by decide) inner (by decide)).symm
  · exact hsign _ (by decide) hread
  · exact hsign _ (by decide) hread
  · exact hsign _ (by decide) hread

/-- Whatever the standard grammar reads is the unit of a token. -/
theorem exists_unit_of_read? {cs : List Char} {r : Except ExprError (Lexeme PointRule)}
    (h : Grammar.standard.read? cs = some r) : ∃ t : Token, t.unit = r := by
  obtain ⟨p, hp, hread⟩ := List.exists_of_findSome?_eq_some h
  obtain ⟨t, rfl, hchars⟩ := exists_pattern_eq hp (Option.isSome_of_eq_some hread)
  refine ⟨t, ?_⟩
  have hagain : t.pattern.read? t.chars = some r := by
    rcases hchars with rfl | ⟨htrims, htrim⟩
    · exact hread
    · rw [← read?_eq_of_trim_eq htrims htrim, hread]
  rw [read?_pattern_chars, Option.some.injEq] at hagain
  exact hagain

/-! ## Inside a token -/

/-- A part from the front is not read, or it is read with the next character too. -/
theorem not_stops_pattern (t : Token) {front back : List Char} {c : Char}
    (heq : t.chars = front ++ c :: back) (hfront : front ≠ []) :
    (t.pattern.read? front).isSome = true → (t.pattern.read? (front ++ [c])).isSome = true := by
  intro hread
  cases t with
  | digits run isRun =>
    have hrun : run = front ++ c :: back := heq
    rw [hrun] at isRun
    simp only [pattern, isSome_read?_integer, isDigitRun, List.all_append, List.all_cons,
      Bool.and_eq_true] at isRun hread ⊢
    simp [isRun]
  | truth value =>
    -- neither of the two words begins with the other, or with itself and more
    exfalso
    rw [pattern, isSome_read?_boolean] at hread
    have htruth : (truthText value).toList = front ++ c :: back := heq
    rcases hread with rfl | rfl <;> cases value <;> simp [truthText] at htruth
  | sign op standard =>
    -- trimming makes nothing longer, so a part does not trim to the whole
    exfalso
    rw [pattern, isSome_read?_operator] at hread
    have hlen := (trim_sublist front).length_le
    have htoken : op.token.toList = front ++ c :: back := heq
    rw [hread, htoken, List.length_append, List.length_cons] at hlen
    omega
  | field name named plain =>
    have hplain : '}' ∉ name := brace_not_mem_of_plain (List.all_eq_true.1 plain)
    exact absurd (bracketed_of_read?_field hread) (not_bracketed_front (by decide) hplain heq hfront)
  | quoted inner unquoted =>
    exact absurd ((isSome_read?_string _ _).1 hread)
      (not_bracketed_front (by decide) unquoted heq hfront)

theorem unbroken (t : Token) : Unbroken Grammar.standard.accepts t.chars := by
  rintro front c back heq hfront ⟨hread, hstop⟩
  have hhead : front.head? = t.chars.head? := by
    rw [heq, List.head?_append_of_ne_nil _ hfront]
  have hhead' : (front ++ [c]).head? = t.chars.head? := by
    rw [List.head?_append_of_ne_nil _ hfront, hhead]
  rw [Grammar.accepts, read?_eq_pattern t hhead] at hread
  rw [Grammar.accepts, read?_eq_pattern t hhead', not_stops_pattern t heq hfront hread] at hstop
  cases hstop

/-! ## Behind a token -/

/-- Blanks behind the token are read with it where the pattern trims. -/
theorem read?_append_blank (t : Token) (htrims : t.pattern.trims = true) {gap : List Char}
    (hgap : Blank gap) : Grammar.standard.read? (t.chars ++ gap) = some t.unit := by
  obtain ⟨c, cs, hchars, hc⟩ := exists_decides t
  have htrim : trim (t.chars ++ gap) = trim t.chars := by
    rw [hchars]
    exact trim_cons_append_blank hc.not_blank cs hgap
  rw [read?_append, read?_eq_of_trim_eq htrims htrim, read?_pattern_chars]

/-- Where the pattern trims, nothing is read once another character stands behind the blanks. -/
theorem accepts_append_of_trims (t : Token) (htrims : t.pattern.trims = true) {gap : List Char}
    {d : Char} (hd : isBlank d = false) :
    Grammar.standard.accepts (t.chars ++ gap ++ [d]) = false := by
  rw [Grammar.accepts, List.append_assoc, read?_append, ← List.append_assoc, Bool.eq_false_iff]
  intro hread
  cases t with
  | digits _ _ => cases htrims
  | truth _ => cases htrims
  | sign op standard =>
    -- nothing can be trimmed off, so the text is too long for the token
    obtain ⟨c, cs, hchars, hc⟩ := exists_decides (sign op standard)
    have hwhole := trim_cons_append_singleton hc.not_blank (cs ++ gap) hd
    rw [pattern, isSome_read?_operator, hchars, List.cons_append, hwhole] at hread
    have htoken : op.token.toList = c :: cs := hchars
    have hlen := congrArg List.length hread
    simp only [htoken, List.length_append, List.length_cons, List.length_nil] at hlen
    omega
  | field name named plain =>
    exact not_bracketed_append (by decide) gap hd (bracketed_of_read?_field hread)
  | quoted inner unquoted =>
    exact not_bracketed_append (by decide) gap hd ((isSome_read?_string _ _).1 hread)

/-- Where it does not, nothing is read with any character behind the token, unless digits go on. -/
theorem accepts_append_of_not_trims (t : Token) (htrims : t.pattern.trims = false) {d : Char}
    (hd : t.isDigits = true → d.isDigit = false) :
    Grammar.standard.accepts (t.chars ++ [d]) = false := by
  rw [Grammar.accepts, read?_append, Bool.eq_false_iff]
  intro hread
  cases t with
  | digits run isRun =>
    rw [pattern, isSome_read?_integer] at hread
    have hdigit : d.isDigit = false := hd rfl
    simp [isDigitRun, chars, hdigit] at hread
  | truth value =>
    rw [pattern, isSome_read?_boolean] at hread
    cases value <;> simp [chars, truthText] at hread
  | sign _ _ => cases htrims
  | field _ _ _ => cases htrims
  | quoted _ _ => cases htrims

theorem stops_of_trims (t : Token) (htrims : t.pattern.trims = true) {gap : List Char}
    (hgap : Blank gap) {d : Char} (hd : isBlank d = false) :
    Stops Grammar.standard.accepts (t.chars ++ gap) d := by
  constructor
  · rw [Grammar.accepts, read?_append_blank t htrims hgap]
    rfl
  · exact accepts_append_of_trims t htrims hd

theorem stops_of_not_trims (t : Token) (htrims : t.pattern.trims = false) {d : Char}
    (hd : t.isDigits = true → d.isDigit = false) : Stops Grammar.standard.accepts t.chars d := by
  constructor
  · rw [Grammar.accepts, read?_chars]
    rfl
  · exact accepts_append_of_not_trims t htrims hd

theorem unbroken_append_blank (t : Token) (htrims : t.pattern.trims = true) {gap : List Char}
    (hgap : Blank gap) : Unbroken Grammar.standard.accepts (t.chars ++ gap) := by
  apply unbroken_append t.unbroken
  rintro front d back rfl
  have hblank : Blank (front ++ [d]) := by
    intro c hc
    apply hgap
    rw [List.append_cons]
    exact List.mem_append_left back hc
  rw [Grammar.accepts, List.append_assoc, read?_append_blank t htrims hblank]
  rfl

/-- A text that begins with a token has a piece that is read as the unit of the token; the pieces
behind it are those of what follows the blanks behind the token. -/
theorem exists_piece (t : Token) {gap rest : List Char} (hgap : Blank gap)
    (hrest : ∀ d ∈ rest.head?, isBlank d = false)
    (hdigits : t.isDigits = true → gap = [] → ∀ d ∈ rest.head?, d.isDigit = false) :
    ∃ piece, Grammar.standard.read? piece = some t.unit ∧
      pieces Grammar.standard.accepts [] (t.chars ++ gap ++ rest) =
        piece :: pieces Grammar.standard.accepts [] rest := by
  obtain ⟨c, cs, hchars, hc⟩ := exists_decides t
  cases htrims : t.pattern.trims with
  | true =>
    -- the blanks behind the token belong to its piece
    refine ⟨t.chars ++ gap, read?_append_blank t htrims hgap, ?_⟩
    have hinside := unbroken_append_blank t htrims hgap
    have hstop : ∀ d ∈ rest.head?, Stops Grammar.standard.accepts (t.chars ++ gap) d := by
      intro d hd
      exact stops_of_trims t htrims hgap (hrest d hd)
    rw [hchars, List.cons_append] at hinside hstop ⊢
    exact pieces_eq_cons hc.not_blank hinside hstop
  | false =>
    -- the piece ends with the token, and the blanks behind it are skipped
    refine ⟨t.chars, read?_chars t, ?_⟩
    have hinside := unbroken t
    have hstop : ∀ d ∈ (gap ++ rest).head?, Stops Grammar.standard.accepts t.chars d := by
      intro d hd
      apply stops_of_not_trims t htrims
      intro hrun
      cases gap with
      | nil => exact hdigits hrun rfl d hd
      | cons g gap =>
        -- the character is a blank
        cases hd
        rw [Bool.eq_false_iff]
        intro hdigit
        have hblank := hgap d List.mem_cons_self
        rw [isBlank_eq_false_of_isDigit hdigit] at hblank
        cases hblank
    rw [← pieces_skip hgap rest, List.append_assoc]
    rw [hchars] at hinside hstop ⊢
    exact pieces_eq_cons hc.not_blank hinside hstop

end Token

end FilterLang
