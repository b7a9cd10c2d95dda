import FilterLang.Proofs.Compile.Adjacent
import FilterLang.Proofs.Compile.Token
import FilterLang.Proofs.Expr.CanonicalForm

/-!
# Canonical forms of the standard grammar

The trees of the standard grammar can be read back from their canonical forms, whatever the strings in
them hold (`compile_eq_of_toString_eq`).  Every operand in such a tree is written as a token or is a
decimal with digits on both sides of its point (`Operand.Written`).  So its text says which operand it is,
and where it ends: at the second quote if it begins with a quote, and at the first bracket otherwise.
-/

namespace FilterLang

open Text Pattern

/-! ## What stands at leaves -/

/-- The operands that the standard grammar builds trees over. -/
inductive Operand.Written : Operand → Prop where
  | token (t : Token) (x : Operand) (unit : t.unit = .ok (.operand x)) : Written x
  /-- Two runs of digits that were joined; zeros in front are kept -/
  | joined (whole fraction : List Char) (d : Decimal) (isRun_whole : isDigitRun whole = true)
      (isRun_fraction : isDigitRun fraction = true)
      (value : Decimal.ofText? (whole ++ '.' :: fraction) = some d) :
      Written (.literal (String.ofList (whole ++ '.' :: fraction)) (.decimal d))

/-- An operand is written as its token is. -/
theorem Token.toList_text {t : Token} {x : Operand} (h : t.unit = .ok (.operand x)) :
    x.text.toList = t.chars := by
  cases t with
  | digits run isRun =>
    simp only [unit] at h
    split at h
    · cases h
      exact String.toList_ofList
    · cases h
  | truth value =>
    cases h
    rfl
  | sign op standard => cases h
  | field name named plain =>
    cases h
    simp [Operand.text, chars]
  | quoted inner unquoted =>
    cases h
    exact String.toList_ofList

/-- Only digits are integers. -/
theorem Operand.Written.isDigitRun_of_integer {text : String} {n : Int64}
    (h : Written (.literal text (.integer n))) : isDigitRun text.toList = true := by
  cases h with
  | token t _ unit =>
    rw [show text.toList = t.chars from Token.toList_text unit]
    cases t with
    | digits run isRun => exact isRun
    | truth _ => cases unit
    | sign _ _ => cases unit
    | field _ _ _ => cases unit
    | quoted _ _ => cases unit

/-! ## The text of an operand -/

/-- The operand that the text stands for in a canonical form: what the grammar reads, and a decimal where
it reads nothing. -/
def Operand.ofText? (cs : List Char) : Option Operand :=
  match Grammar.standard.read? cs with
  | some (.ok (.operand x)) => some x
  | some (.ok (.operator _)) => none
  | some (.error _) => none
  | none => (Decimal.ofText? cs).map fun d => .literal (String.ofList cs) (.decimal d)

/-- Digits with a point among them are no unit. -/
theorem Grammar.read?_pointed_eq_none {whole fraction : List Char} (h : isDigitRun whole = true) :
    Grammar.standard.read? (whole ++ '.' :: fraction) = none := by
  have hpattern : Grammar.standard.read? (whole ++ '.' :: fraction) =
      Pattern.integer.read? (whole ++ '.' :: fraction) :=
    (Token.digits whole h).read?_append ('.' :: fraction)
  have hrun : isDigitRun (whole ++ '.' :: fraction) = false := by
    simp [isDigitRun]
  rw [hpattern, ← Option.isNone_iff_eq_none, ← Option.not_isSome, isSome_read?_integer, hrun]
  rfl

theorem Operand.Written.ofText?_text {x : Operand} (h : Written x) : ofText? x.text.toList = some x := by
  cases h with
  | token t _ unit => simp only [ofText?, Token.toList_text unit, Token.read?_chars, unit]
  | joined whole fraction d isRun_whole _ value =>
    simp only [ofText?, text, String.toList_ofList, Grammar.read?_pointed_eq_none isRun_whole, value,
      Option.map_some]

/-- The forms of the texts at leaves. -/
inductive LeafText : List Char → Prop where
  | plain (c : Char) (cs : List Char) (head : c ≠ '\'' ∧ c ≠ '[' ∧ c ≠ 'n') (unclosed : ']' ∉ c :: cs) :
      LeafText (c :: cs)
  | quoted (inner : List Char) (unquoted : '\'' ∉ inner) : LeafText ('\'' :: (inner ++ ['\'']))

/-- Digits, and behind them perhaps a point and more digits. -/
theorem leafText_run_append {run more : List Char} (isRun : isDigitRun run = true)
    (hmore : ∀ c ∈ more, c.isDigit = true ∨ c = '.') : LeafText (run ++ more) := by
  obtain ⟨d, ds, rfl⟩ := List.exists_cons_of_ne_nil (isDigitRun_iff.1 isRun).1
  have hne := ne_of_isDigit (isDigit_of_mem_run isRun List.mem_cons_self)
  refine .plain d (ds ++ more) ⟨hne _ rfl, hne _ rfl, hne _ rfl⟩ ?_
  rw [← List.cons_append, List.mem_append]
  rintro (hrun | hmore')
  · exact absurd (isDigit_of_mem_run isRun hrun) (by decide)
  · rcases hmore _ hmore' with hdigit | hpoint
    · exact absurd hdigit (by decide)
    · exact absurd hpoint (by decide)

theorem Operand.Written.leafText {x : Operand} (h : Written x) : LeafText x.text.toList := by
  cases h with
  | token t _ unit =>
    rw [Token.toList_text unit]
    cases t with
    | digits run isRun =>
      rw [← List.append_nil (Token.digits run isRun).chars]
      exact leafText_run_append isRun (by simp)
    | truth value => cases value <;> exact .plain _ _ (by decide) (by decide)
    | sign op standard => cases unit
    | field name named plain =>
      have hbracket : isNameChar ']' = false := by decide
      refine .plain '{' _ (by decide) ?_
      intro hmem
      rcases List.mem_cons.1 hmem with heq | hmem
      · exact absurd heq (by decide)
      rcases List.mem_append.1 hmem with hname | hbrace
      · rw [List.all_eq_true.1 plain _ hname] at hbracket
        cases hbracket
      · exact absurd (List.mem_singleton.1 hbrace) (by decide)
    | quoted inner unquoted => exact .quoted inner unquoted
  | joined whole fraction d isRun_whole isRun_fraction _ =>
    rw [text, String.toList_ofList]
    apply leafText_run_append isRun_whole
    intro c hc
    rcases List.mem_cons.1 hc with rfl | hc
    · exact .inr rfl
    · exact .inl (isDigit_of_mem_run isRun_fraction hc)

/-- A text at a leaf ends where its form says, not at the first bracket that stands in it. -/
theorem selfDelimiting_leafText : SelfDelimiting LeafText fun cs => cs ++ [']'] := by
  intro cs cs' hcs hcs' r s heq
  cases hcs with
  | plain c cs head unclosed =>
    cases hcs' with
    | plain c' cs' _ unclosed' => exact selfDelimiting_concat ']' unclosed unclosed' heq
    | quoted inner unquoted => exact absurd (List.cons.inj heq).1 head.1
  | quoted inner unquoted =>
    cases hcs' with
    | plain c' cs' head' _ => exact absurd (List.cons.inj heq).1.symm head'.1
    | quoted inner' unquoted' =>
      -- both end at the second quote, whatever brackets stand in front of it
      have hinner : inner ++ ['\''] ++ ']' :: r = inner' ++ ['\''] ++ ']' :: s := by
        simpa using heq
      obtain ⟨rfl, hrest⟩ := selfDelimiting_concat '\'' unquoted unquoted' hinner
      exact ⟨rfl, (List.cons.inj hrest).2⟩

theorem selfDelimiting_written : SelfDelimiting Operand.Written fun x => x.text.toList ++ [']'] := by
  intro x y hx hy r s heq
  obtain ⟨htext, hrest⟩ := selfDelimiting_leafText hx.leafText hy.leafText heq
  -- what the text is read back as is the operand
  have hsame : some x = some y := by
    rw [← hx.ofText?_text, ← hy.ofText?_text, htext]
  exact ⟨Option.some.inj hsame, hrest⟩

theorem beginsLeaf_of_written {x : Operand} (h : x.Written) : Tree.BeginsLeaf x := by
  have hleaf := h.leafText
  unfold Tree.BeginsLeaf
  generalize x.text.toList = cs at hleaf
  cases hleaf with
  | plain c cs head _ => exact ⟨c, cs, rfl, head.2⟩
  | quoted inner _ => exact ⟨'\'', _, rfl, by decide, by decide⟩

/-- The tokens of the standard grammar differ in their first characters. -/
theorem selfDelimiting_operators :
    SelfDelimiting (· ∈ standardOperators) fun op => op.token.toList := by
  have hheads : ∀ op ∈ standardOperators, ∀ op' ∈ standardOperators,
      op.token.toList.head? = op'.token.toList.head? → op = op' := by decide
  have hnonempty : ∀ op ∈ standardOperators, op.token.toList ≠ [] := by decide
  intro op op' hop hop' r s heq
  have hhead := congrArg List.head? heq
  rw [List.head?_append_of_ne_nil _ (hnonempty op hop),
    List.head?_append_of_ne_nil _ (hnonempty op' hop')] at hhead
  obtain rfl := hheads op hop op' hop' hhead
  exact ⟨rfl, List.append_cancel_left heq⟩

/-! ## Whole trees -/

/-- A tree over what the standard grammar builds trees over. -/
def Tree.Standard (t : Tree PointRule) : Prop :=
  t.Over Operand.Written (· ∈ standardOperators)

theorem selfDelimiting_standard : SelfDelimiting Tree.Standard Tree.chars :=
  Tree.selfDelimiting_chars selfDelimiting_written selfDelimiting_operators
    fun _ => beginsLeaf_of_written

/-- Joining two integers that are written gives a decimal that is. -/
theorem reducesOver_written :
    Tree.ReducesOver Operand.Written (fun op : Operator PointRule => op ∈ standardOperators) := by
  have hinteger : ∀ {t : Tree PointRule} {text : String}, t.Standard → t.integerText? = some text →
      isDigitRun text.toList = true := by
    intro t text ht htext
    unfold Tree.integerText? at htext
    split at htext
    · cases htext
      exact Operand.Written.isDigitRun_of_integer ht
    · cases htext
  intro rule left right x hleft hright hreduce
  have hjoin : joinAsDecimal left right = some x := hreduce
  simp only [joinAsDecimal, Option.bind_eq_bind, Option.bind_eq_some_iff] at hjoin
  obtain ⟨whole, hwhole, fraction, hfraction, d, hd, hx⟩ := hjoin
  cases hx
  have hchars : (whole ++ "." ++ fraction).toList = whole.toList ++ '.' :: fraction.toList := by simp
  rw [hchars] at hd
  have htext : whole ++ "." ++ fraction = String.ofList (whole.toList ++ '.' :: fraction.toList) := by
    rw [← hchars, String.ofList_toList]
  rw [htext]
  exact .joined whole.toList fraction.toList d (hinteger hleft hwhole) (hinteger hright hfraction) hd

/-- What the standard grammar reads goes into trees. -/
theorem over_of_read? {cs : List Char} {u : Lexeme PointRule}
    (h : Grammar.standard.read? cs = some (.ok u)) :
    u.Over Operand.Written (· ∈ standardOperators) := by
  obtain ⟨t, ht⟩ := Token.exists_unit_of_read? h
  cases u with
  | operand x => exact .token t x ht
  | operator op =>
    cases t with
    | digits run isRun =>
      simp only [Token.unit] at ht
      split at ht
      · cases ht
      · cases ht
    | truth _ => cases ht
    | sign op standard =>
      cases ht
      exact standard
    | field _ _ _ => cases ht
    | quoted _ _ => cases ht

theorem standard_of_compile {expression : String} {t : Tree PointRule}
    (h : compile Grammar.standard expression = .ok t) : t.Standard := by
  obtain ⟨us, hread, hmerged⟩ := exists_readsAs_of_compile h
  refine Tree.over_ofLexemes reducesOver_written ?_ hmerged
  intro u hu
  obtain ⟨piece, -, hpiece⟩ := hread.exists_piece hu
  exact over_of_read? hpiece

/-- Expressions of the standard grammar whose trees have the same canonical form have the same tree: the
same shape with the same holes, over the same operands and operators. -/
theorem compile_eq_of_toString_eq {expression expression' : String} {t t' : Tree PointRule}
    (h : compile Grammar.standard expression = .ok t)
    (h' : compile Grammar.standard expression' = .ok t') (hform : toString t = toString t') : t = t' := by
  have hchars : t.chars = t'.chars := String.ofList_injective hform
  exact selfDelimiting_standard.eq_of_word_eq (standard_of_compile h) (standard_of_compile h') hchars

/-- A string that looks like the rest of a tree, a decimal with a zero in front and an operator that comes
last, written close together and with blanks between them. -/
theorem compile_eq_of_toString_eq_layouts :
    let equal : Operator PointRule := ⟨"=", 20, .binary⟩
    let conj : Operator PointRule := ⟨"and", 10, .binary⟩
    let price : Operand := .literal "01.5" (.decimal ⟨false, 15, 1, by decide, by decide⟩)
    let name : Operand := .literal "'a]]and[null'" (.string "a]]and[null")
    ∃ t t', compile Grammar.standard "'a]]and[null'=01.5and" = .ok t ∧
      compile Grammar.standard " 'a]]and[null'  = 01 . 5  and " = .ok t' ∧
      toString t = "[[['a]]and[null']=[01.5]]andnull]" ∧ toString t = toString t' ∧
      t = t' ∧ t' = .node conj (.node equal (.leaf name) (.leaf price)) .hole := by
  intro equal conj price name
  obtain ⟨t, ht⟩ : ∃ t, t = Tree.node conj (.node equal (.leaf name) (.leaf price)) .hole := ⟨_, rfl⟩
  have hclose : compile Grammar.standard "'a]]and[null'=01.5and" = .ok t := by
    rw [ht]
    decide +kernel
  have hapart : compile Grammar.standard " 'a]]and[null'  = 01 . 5  and " = .ok t := by
    rw [ht]
    decide +kernel
  refine ⟨t, t, hclose, hapart, ?_, rfl, compile_eq_of_toString_eq hclose hapart rfl, ht⟩
  rw [ht]
  decide +kernel

end FilterLang
