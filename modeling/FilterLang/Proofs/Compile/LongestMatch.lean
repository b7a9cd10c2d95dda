import FilterLang.Expr.DecimalPoint
import FilterLang.Proofs.Compile.Scan
import FilterLang.Proofs.Grammar.Settings

/-!
# Where the longest match is taken

A piece ends where one more character makes it unreadable.  That is the longest piece only if nothing
longer can be read either, and a grammar can have gaps: with the tokens `=` and `===`, the text `===`
is cut into three pieces, because `==` is nothing.

For the grammars of settings it can be read off the settings whether there are gaps
(`Settings.Gapless`): their own words have to come through the scan in one piece, no token may be the
beginning of a field or of a string, and the quote may not begin anything else.  Exactly then every
unit that is merged is read from the longest text that can be read there
(`takesLongest_iff_gapless`).
-/

namespace FilterLang

open Text Pattern

variable {ρ : Type}

/-! ## The law -/

/-- Whether the piece is the longest text that can be read from the beginning of a text. -/
def LongestPrefix (accepts : List Char → Bool) (piece cs : List Char) : Prop :=
  piece <+: cs ∧ accepts piece = true ∧
    ∀ front, front <+: cs → accepts front = true → front.length ≤ piece.length

/-- Whether in every expression each unit that is merged is read from the longest text that can be read
from there. -/
def Grammar.TakesLongest [Reducer ρ] (g : Grammar ρ) : Prop :=
  ∀ (expression : String) (handed : List (List Char)) (p q : Progress ρ) (piece rest : List Char),
    Tiling g.accepts expression.toList handed (piece ++ rest) →
    handed.foldlM (Progress.read g) {} = .ok p →
    NextPiece g.accepts piece rest → p.read g piece = .ok q →
    LongestPrefix g.accepts piece (piece ++ rest)

/-! ## Texts that are kept whole -/

namespace Grammar

/-- Whether the text is read as an error. -/
def misreads (g : Grammar ρ) (cs : List Char) : Bool :=
  match g.read? cs with
  | some (.error _) => true
  | some (.ok _) => false
  | none => false

/-- Whether the text, scanned for itself, comes out in one piece or is refused at the first one. -/
def keeps (g : Grammar ρ) (cs : List Char) : Bool :=
  match pieces g.accepts [] cs with
  | [] => true
  | piece :: _ => piece == cs || g.misreads piece

theorem misreads_iff {g : Grammar ρ} {cs : List Char} :
    g.misreads cs = true ↔ ∃ e, g.read? cs = some (.error e) := by
  unfold misreads
  cases g.read? cs with
  | none => simp
  | some r => cases r <;> simp

/-- Only digits are misread, and never a single one. -/
theorem isDigitRun_of_misreads {g : Grammar ρ} {cs : List Char} (h : g.misreads cs = true) :
    isDigitRun cs = true ∧ ∀ c, cs ≠ [c] := by
  obtain ⟨e, he⟩ := misreads_iff.1 h
  obtain ⟨hrun, hover, -⟩ := read?_eq_error he
  refine ⟨hrun, ?_⟩
  rintro c rfl
  have hdigit : c.isDigit = true := isDigit_of_mem_run hrun List.mem_cons_self
  have hle : c.toNat ≤ 57 := by
    rw [Char.isDigit, Bool.and_eq_true, decide_eq_true_eq, decide_eq_true_eq] at hdigit
    exact UInt32.le_iff_toNat_le.1 hdigit.2
  have hvalue : digitsValue [c] = c.toNat - 48 := by simp [digitsValue, Nat.ofDigitChars]
  have hsmall : (9 : Nat) < Nat.pow 2 63 := by decide
  omega

theorem keeps_iff {g : Grammar ρ} {piece rest : List Char} (h : NextPiece g.accepts piece rest) :
    g.keeps (piece ++ rest) = true ↔ rest = [] ∨ g.misreads piece = true := by
  unfold keeps
  rw [h.pieces_eq]
  simp

/-- At the beginning of an expression any unit can be taken in. -/
theorem exists_add_start [Reducer ρ] (u : Lexeme ρ) : ∃ q, ({} : Progress ρ).add u = .ok q := by
  refine ⟨⟨u.tree, ({} : Progress ρ).operatorsWith u⟩, Progress.add_eq_ok_iff.2 ⟨?_, ?_, rfl⟩⟩
  · cases u with
    | operand x => exact Nat.zero_le _
    | operator op => exact (by decide : 1 ≤ maxOperators)
  · cases u with
    | operand x => rfl
    | operator op => rfl

/-- The law is a matter of single texts: it holds if all that can be read is kept whole. -/
theorem takesLongest_iff_keeps [Reducer ρ] {g : Grammar ρ} :
    g.TakesLongest ↔ ∀ c cs, isBlank c = false → g.accepts (c :: cs) = true → g.keeps (c :: cs) = true := by
  constructor
  · intro hlaw c cs hc haccepts
    obtain ⟨piece, rest, hsplit, hnext⟩ := exists_nextPiece g.accepts hc cs
    rw [hsplit] at haccepts ⊢
    rw [keeps_iff hnext]
    cases rest with
    | nil => exact .inl rfl
    | cons d rest =>
      right
      rw [misreads_iff]
      obtain ⟨r, hr⟩ := Option.isSome_iff_exists.1 (hnext.stops d rfl).1
      cases r with
      | error e => exact ⟨e, hr⟩
      | ok u =>
        -- the piece would be merged, although the whole text can be read
        exfalso
        obtain ⟨q, hadd⟩ := exists_add_start u
        have hread : ({} : Progress ρ).read g piece = .ok q := Progress.read_eq_ok_iff.2 ⟨u, hr, hadd⟩
        have htiling : Tiling g.accepts (String.ofList (piece ++ d :: rest)).toList []
            (piece ++ d :: rest) := by
          rw [String.toList_ofList]
          exact .done _
        obtain ⟨-, -, hlongest⟩ := hlaw _ [] {} q piece (d :: rest) htiling rfl hnext hread
        have hlen := hlongest _ (List.prefix_refl _) haccepts
        rw [List.length_append, List.length_cons] at hlen
        omega
  · intro hkeeps expression handed p q piece rest _ _ hnext hread
    obtain ⟨u, hu, -⟩ := Progress.read_eq_ok_iff.1 hread
    refine ⟨List.prefix_append _ _, by rw [accepts, hu]; rfl, ?_⟩
    intro front hfront haccepts
    by_contra hlonger
    -- a longer text that can be read would have to be kept whole, but its first piece is this one
    rw [Nat.not_le] at hlonger
    have hprefix : piece <+: front :=
      List.prefix_of_prefix_length_le (List.prefix_append piece rest) hfront (Nat.le_of_lt hlonger)
    obtain ⟨more, rfl⟩ := hprefix
    have hmore : more <+: rest := (List.prefix_append_right_inj piece).1 hfront
    have hnext' : NextPiece g.accepts piece more := hnext.of_prefix hmore
    obtain ⟨c, cs, hpiece, hc⟩ := hnext.exists_cons
    have hwhole : g.keeps (piece ++ more) = true := by
      rw [hpiece, List.cons_append] at haccepts ⊢
      exact hkeeps c (cs ++ more) hc haccepts
    rcases (keeps_iff hnext').1 hwhole with rfl | hmisread
    · simp at hlonger
    · obtain ⟨e, he⟩ := misreads_iff.1 hmisread
      rw [hu] at he
      cases he

end Grammar

/-! ## Settings without gaps -/

/-- Not empty, and without blanks around it. -/
def IsToken (t : String) : Prop :=
  t.toList ≠ [] ∧ trim t.toList = t.toList

instance (t : String) : Decidable (IsToken t) :=
  inferInstanceAs (Decidable (_ ∧ _))

/-- What keeps a grammar from having gaps. -/
structure Settings.Gapless (s : Settings) (point : ρ) : Prop where
  /-- All that the settings spell out comes through the scan in one piece. -/
  words : ∀ w ∈ s.words, (s.grammar point).keeps w = true
  /-- No token can be continued to a field. -/
  fields : ∀ t ∈ s.tokens, t.toList.head? = some '{' → ∃ c ∈ t.toList.tail, isNameChar c = false
  /-- No token can be continued to a string. -/
  strings : isBlank s.quote = false →
    ∀ t ∈ s.tokens, t.toList.head? = some s.quote → s.quote ∈ t.toList.tail
  /-- The quote begins neither digits nor a field nor a truth value. -/
  quote : isBlank s.quote = false → s.quote.isDigit = false ∧ s.quote ≠ '{' ∧
    (s.booleans = true → ∀ w ∈ truthWords, w.head? ≠ some s.quote)

namespace Settings

variable {s : Settings} {point : ρ}

theorem gapless_iff :
    s.Gapless point ↔
      (∀ w ∈ s.words, (s.grammar point).keeps w = true) ∧
        (∀ t ∈ s.tokens, t.toList.head? = some '{' → t.toList.tail.all isNameChar = false) ∧
        (isBlank s.quote = false →
          ∀ t ∈ s.tokens, t.toList.head? = some s.quote → s.quote ∈ t.toList.tail) ∧
        (isBlank s.quote = false → s.quote.isDigit = false ∧ s.quote ≠ '{' ∧
          (s.booleans = true → ∀ w ∈ truthWords, w.head? ≠ some s.quote)) := by
  simp only [List.all_eq_false, Bool.not_eq_true]
  constructor
  · intro h
    exact ⟨h.words, h.fields, h.strings, h.quote⟩
  · rintro ⟨words, fields, strings, quote⟩
    exact ⟨words, fields, strings, quote⟩

instance (s : Settings) (point : ρ) : Decidable (s.Gapless point) :=
  decidable_of_iff _ gapless_iff.symm

/-! ## Without gaps the longest match is taken -/

theorem Gapless.misreads_of_word (h : s.Gapless point) {w piece back : List Char} {d : Char}
    (hw : w ∈ s.words) (heq : w = piece ++ d :: back)
    (hnext : NextPiece (s.grammar point).accepts piece (d :: back)) :
    (s.grammar point).misreads piece = true := by
  have hkept := h.words w hw
  rw [heq, Grammar.keeps_iff hnext] at hkept
  rcases hkept with hnil | hmisread
  · cases hnil
  · exact hmisread

/-- Nothing that a field begins with can be read. -/
theorem Gapless.not_reads_front_of_field (h : s.Gapless point) {name front back : List Char} {d : Char}
    (plain : ∀ c ∈ name, isNameChar c = true) (heq : '{' :: (name ++ ['}']) = front ++ d :: back)
    (hfront : front ≠ []) : ¬s.Reads front := by
  have hbracketed : ¬Bracketed '{' '}' front :=
    not_bracketed_front (by decide) (brace_not_mem_of_plain plain) heq hfront
  obtain ⟨held, rfl, hheld⟩ := front_of_brackets heq hfront
  have hplain : ∀ c ∈ held, isNameChar c = true := fun c hc => plain c (hheld.subset hc)
  -- there is nothing to trim off
  have htrim : trim ('{' :: held) = '{' :: held := by
    apply trim_eq_self
    · intro c hc
      cases hc
      decide
    · intro c hc
      rcases List.mem_cons.1 (List.mem_of_getLast? hc) with rfl | hmem
      · decide
      · exact isBlank_eq_false_of_isNameChar (hplain c hmem)
  intro hread
  cases hread with
  | digits run => simp [isDigitRun] at run
  | truth allowed word => simp [truthWords] at word
  | field name' whole _ plain' => exact hbracketed ⟨name', whole, brace_not_mem_of_plain plain'⟩
  | quoted inner whole _ =>
    rw [htrim] at whole
    have hquote : '{' = s.quote := (List.cons.inj whole).1
    have hblank : isBlank s.quote = false := by rw [← hquote]; decide
    exact (h.quote hblank).2.1 hquote.symm
  | token t mem whole =>
    rw [htrim] at whole
    have hhead : t.toList.head? = some '{' := by rw [← whole]; rfl
    obtain ⟨c, hc, hname⟩ := h.fields t mem hhead
    rw [← whole] at hc
    have hc' := hplain c hc
    rw [hname] at hc'
    cases hc'

/-- Nothing that a string begins with can be read. -/
theorem Gapless.not_reads_front_of_string (h : s.Gapless point) (hquote : isBlank s.quote = false)
    {inner front back : List Char} {d : Char} (unquoted : s.quote ∉ inner)
    (heq : s.quote :: (inner ++ [s.quote]) = front ++ d :: back) (hfront : front ≠ []) :
    ¬s.Reads front := by
  have hbracketed : ¬Bracketed s.quote s.quote front := not_bracketed_front hquote unquoted heq hfront
  obtain ⟨hdigit, hbrace, htruth⟩ := h.quote hquote
  obtain ⟨held, rfl, hheld⟩ := front_of_brackets heq hfront
  intro hread
  cases hread with
  | digits run =>
    rw [isDigit_of_mem_run run List.mem_cons_self] at hdigit
    cases hdigit
  | truth allowed word => exact htruth allowed _ word rfl
  | field name whole _ _ =>
    rw [trim_cons hquote] at whole
    exact hbrace (List.cons.inj whole).1
  | quoted inner' whole unquoted' => exact hbracketed ⟨inner', whole, unquoted'⟩
  | token t mem whole =>
    rw [trim_cons hquote] at whole
    have hhead : t.toList.head? = some s.quote := by rw [← whole]; rfl
    have hmem := h.strings hquote t mem hhead
    rw [← whole] at hmem
    exact unquoted (hheld.subset ((trimEnd_prefix_self held).subset hmem))

/-- A piece that ends inside a text that can be read is misread. -/
theorem Gapless.misreads_of_reads (h : s.Gapless point) {c d : Char} {cs piece back : List Char}
    (hc : isBlank c = false) (hread : s.Reads (c :: cs)) (heq : c :: cs = piece ++ d :: back)
    (hnext : NextPiece (s.grammar point).accepts piece (d :: back)) :
    (s.grammar point).misreads piece = true := by
  obtain ⟨hpiece, hstop⟩ := hnext.stops d rfl
  rw [accepts_iff_reads] at hpiece
  have hmore : ¬s.Reads (piece ++ [d]) := by
    intro hread'
    have haccepts : (s.grammar point).accepts (piece ++ [d]) = true := accepts_iff_reads.2 hread'
    rw [hstop] at haccepts
    cases haccepts
  have hne : piece ≠ [] := by
    obtain ⟨c', cs', rfl, -⟩ := hnext.exists_cons
    exact List.cons_ne_nil c' cs'
  cases hread with
  | digits run =>
    exfalso
    rw [heq] at run
    apply hmore
    apply Reads.digits
    simp only [isDigitRun, List.all_append, List.all_cons, Bool.and_eq_true] at run ⊢
    simp [run]
  | truth allowed word => exact h.misreads_of_word (mem_words_of_mem_truthWords allowed word) heq hnext
  | field name whole named plain =>
    exfalso
    rcases trim_split hc heq with hsame | ⟨more, hcore, -⟩
    · exact hmore (.field name (hsame.trans whole) named plain)
    · rw [whole] at hcore
      exact h.not_reads_front_of_field plain hcore hne hpiece
  | quoted inner whole unquoted =>
    exfalso
    rcases trim_split hc heq with hsame | ⟨more, hcore, -⟩
    · exact hmore (.quoted inner (hsame.trans whole) unquoted)
    · have hquote : isBlank s.quote = false := by
        rw [trim_cons hc] at whole
        rw [← (List.cons.inj whole).1]
        exact hc
      rw [whole] at hcore
      exact h.not_reads_front_of_string hquote unquoted hcore hne hpiece
  | token t mem whole =>
    rcases trim_split hc heq with hsame | ⟨more, hcore, hprefix⟩
    · exact absurd (.token t mem (hsame.trans whole)) hmore
    · rw [whole] at hcore
      exact h.misreads_of_word (toList_mem_words mem) hcore (hnext.of_prefix hprefix)

theorem Gapless.keeps (h : s.Gapless point) {c : Char} {cs : List Char} (hc : isBlank c = false)
    (hread : (s.grammar point).accepts (c :: cs) = true) : (s.grammar point).keeps (c :: cs) = true := by
  obtain ⟨piece, rest, heq, hnext⟩ := exists_nextPiece (s.grammar point).accepts hc cs
  rw [accepts_iff_reads] at hread
  have hkept : rest = [] ∨ (s.grammar point).misreads piece = true := by
    cases rest with
    | nil => exact .inl rfl
    | cons d back => exact .inr (h.misreads_of_reads hc hread heq hnext)
  rw [heq]
  exact (Grammar.keeps_iff hnext).2 hkept

/-! ## With a gap it is not -/

/-- Letters to fill a field or a string with: more than any token or truth value has, and none of them
the quote. -/
def filling (s : Settings) : List Char :=
  List.replicate ((s.tokens.flatMap String.toList).length + 5) (if s.quote = 'a' then 'b' else 'a')

theorem of_mem_filling {c : Char} (h : c ∈ s.filling) :
    c ≠ s.quote ∧ c ≠ '}' ∧ isNameChar c = true ∧ c.isDigit = false := by
  obtain rfl := List.eq_of_mem_replicate h
  split
  · rename_i hquote
    rw [hquote]
    decide
  · rename_i hquote
    exact ⟨Ne.symm hquote, by decide, by decide, by decide⟩

theorem length_lt_filling {t : String} (h : t ∈ s.tokens) : t.toList.length < s.filling.length := by
  have hle : t.toList.length ≤ (s.tokens.flatMap String.toList).length := by
    rw [List.flatMap_def]
    exact (List.sublist_flatten_of_mem (List.mem_map_of_mem h)).length_le
  rw [filling, List.length_replicate]
  omega

/-- Behind the filling nothing can be read any more. -/
theorem not_reads_filling {c : Char} (hc : isBlank c = false) (cs : List Char) :
    ¬s.Reads (c :: cs ++ s.filling) := by
  have hlong : 5 ≤ s.filling.length := by
    rw [filling, List.length_replicate]
    omega
  have hne : s.filling ≠ [] := by
    intro hnil
    rw [hnil] at hlong
    cases hlong
  obtain ⟨front, d, hfilling⟩ : ∃ front d, s.filling = front ++ [d] :=
    ⟨s.filling.dropLast, s.filling.getLast hne, (List.dropLast_append_getLast hne).symm⟩
  have hd : d ∈ s.filling := by rw [hfilling]; simp
  obtain ⟨hquote, hbrace, hname, hdigit⟩ := of_mem_filling hd
  have htrim : trim (c :: cs ++ s.filling) = c :: (cs ++ front ++ [d]) := by
    rw [hfilling, List.cons_append, ← List.append_assoc, ← List.cons_append,
      trim_cons_append_singleton hc (cs ++ front) (isBlank_eq_false_of_isNameChar hname)]
  intro hread
  cases hread with
  | digits run =>
    rw [isDigit_of_mem_run run (List.mem_append_right _ hd)] at hdigit
    cases hdigit
  | truth allowed word =>
    have hlen : (c :: cs ++ s.filling).length ≤ 5 := by
      have hshort : ∀ w ∈ truthWords, w.length ≤ 5 := by decide
      exact hshort _ word
    rw [List.length_append, List.length_cons] at hlen
    omega
  | field name whole _ _ =>
    rw [htrim] at whole
    have hlast := List.append_inj' (List.cons.inj whole).2 rfl
    exact hbrace (List.cons.inj hlast.2).1
  | quoted inner whole _ =>
    rw [htrim] at whole
    have hlast := List.append_inj' (List.cons.inj whole).2 rfl
    exact hquote (List.cons.inj hlast.2).1
  | token t mem whole =>
    have hlen := length_lt_filling mem
    rw [← whole, htrim, hfilling] at hlen
    simp at hlen
    omega

/-- If all that can be read is kept whole, a text that can be read, but not with the filling behind it,
and then again, begins with digits that are misread. -/
theorem exists_misreads {g : Grammar ρ}
    (hkeeps : ∀ c cs, isBlank c = false → g.accepts (c :: cs) = true → g.keeps (c :: cs) = true)
    {c : Char} {cs more back : List Char} (hc : isBlank c = false) (hread : g.accepts (c :: cs) = true)
    (hgap : g.accepts (c :: cs ++ more) = false) (hwhole : g.accepts (c :: cs ++ more ++ back) = true) :
    ∃ held, c :: held <+: c :: cs ++ more ∧ g.misreads (c :: held) = true := by
  obtain ⟨mid, d, back', rfl, hstops⟩ := exists_stops hread hgap
  obtain ⟨piece, rest, heq, hnext⟩ :=
    exists_nextPiece g.accepts hc (cs ++ (mid ++ d :: back') ++ back)
  have hsplit : piece ++ rest = (c :: cs ++ mid) ++ d :: (back' ++ back) := by
    rw [← heq]
    simp
  have hle : piece.length ≤ (c :: cs ++ mid).length :=
    hnext.length_le_of_stops hsplit (List.cons_ne_nil c (cs ++ mid)) hstops
  have hkept : rest = [] ∨ g.misreads piece = true := by
    rw [← Grammar.keeps_iff hnext, ← heq]
    exact hkeeps c _ hc hwhole
  have hprefix : piece <+: c :: cs ++ mid := by
    have hpiece : piece <+: (c :: cs ++ mid) ++ d :: (back' ++ back) := ⟨rest, hsplit⟩
    exact List.prefix_of_prefix_length_le hpiece (List.prefix_append _ _) hle
  obtain ⟨c', held, rfl, -⟩ := hnext.exists_cons
  obtain ⟨rfl, -⟩ := List.cons.inj heq
  refine ⟨held, hprefix.trans ?_, ?_⟩
  · rw [← List.append_assoc]
    exact List.prefix_append _ _
  · rcases hkept with rfl | hmisread
    · -- the piece would be all there is, and is shorter
      have hlen := congrArg List.length hsplit
      simp only [List.length_append, List.length_cons, List.length_nil] at hlen hle
      omega
    · exact hmisread

/-- All that the settings spell out can be read, and nothing is trimmed off in front of it. -/
theorem reads_of_mem_words (htokens : ∀ t ∈ s.tokens, IsToken t) {w : List Char} (hw : w ∈ s.words) :
    s.Reads w ∧ ∃ c cs, w = c :: cs ∧ isBlank c = false := by
  rcases List.mem_append.1 hw with hw | hw
  · obtain ⟨t, ht, rfl⟩ := List.mem_map.1 hw
    obtain ⟨hne, htrim⟩ := htokens t ht
    refine ⟨.token t ht htrim, ?_⟩
    obtain ⟨c, cs, hcs⟩ := List.exists_cons_of_ne_nil hne
    rw [hcs] at htrim
    exact ⟨c, cs, hcs, isBlank_head_of_trim_eq_self htrim⟩
  · obtain ⟨hb, hw⟩ := List.mem_ite_nil_right.1 hw
    refine ⟨.truth hb hw, ?_⟩
    rcases List.mem_cons.1 hw with rfl | hw
    · exact ⟨'t', "rue".toList, rfl, by decide⟩
    · rw [List.mem_singleton.1 hw]
      exact ⟨'f', "alse".toList, rfl, by decide⟩

section Gaps

variable (hkeeps : ∀ c cs, isBlank c = false → (s.grammar point).accepts (c :: cs) = true →
  (s.grammar point).keeps (c :: cs) = true)

include hkeeps

/-- What can be read as a quote and something without one can be filled up to a string. -/
theorem exists_misreads_of_quote (hquote : isBlank s.quote = false) {cs : List Char}
    (hcs : s.quote ∉ cs) (hread : s.Reads (s.quote :: cs)) :
    ∃ held, s.quote :: held <+: s.quote :: cs ++ s.filling ∧
      (s.grammar point).misreads (s.quote :: held) = true := by
  have hfilled : s.quote ∉ cs ++ s.filling := by
    rw [List.mem_append, not_or]
    exact ⟨hcs, fun hmem => (of_mem_filling hmem).1 rfl⟩
  have hgap : (s.grammar point).accepts (s.quote :: cs ++ s.filling) = false := by
    rw [Bool.eq_false_iff, ne_eq, accepts_iff_reads]
    exact not_reads_filling hquote cs
  have hwhole : s.Reads (s.quote :: cs ++ s.filling ++ [s.quote]) := by
    refine .quoted (cs ++ s.filling) ?_ hfilled
    rw [List.cons_append, trim_cons_append_singleton hquote (cs ++ s.filling) hquote]
    rfl
  exact exists_misreads hkeeps hquote (accepts_iff_reads.2 hread) hgap (accepts_iff_reads.2 hwhole)

theorem isDigit_quote_eq_false (hquote : isBlank s.quote = false) : s.quote.isDigit = false := by
  rw [Bool.eq_false_iff]
  intro hdigit
  have hread : s.Reads [s.quote] := .digits (by simp [isDigitRun, hdigit])
  obtain ⟨held, hheld, hmisread⟩ := exists_misreads_of_quote hkeeps hquote (by simp) hread
  obtain ⟨hrun, hsingle⟩ := Grammar.isDigitRun_of_misreads hmisread
  -- the filling holds no digits, so only the quote itself is left
  cases held with
  | nil => exact hsingle s.quote rfl
  | cons d held =>
    have hd : d ∈ s.filling := by
      have hsub : d :: held <+: s.filling := (List.cons_prefix_cons.1 hheld).2
      exact hsub.subset List.mem_cons_self
    obtain ⟨-, -, -, hd'⟩ := of_mem_filling hd
    rw [isDigit_of_mem_run hrun (List.mem_cons_of_mem s.quote List.mem_cons_self)] at hd'
    cases hd'

/-- Nothing that a string could begin with can be read. -/
theorem not_reads_open (hquote : isBlank s.quote = false) {cs : List Char} (hcs : s.quote ∉ cs) :
    ¬s.Reads (s.quote :: cs) := by
  intro hread
  obtain ⟨held, -, hmisread⟩ := exists_misreads_of_quote hkeeps hquote hcs hread
  obtain ⟨hrun, -⟩ := Grammar.isDigitRun_of_misreads hmisread
  have hdigit := isDigit_quote_eq_false hkeeps hquote
  rw [isDigit_of_mem_run hrun List.mem_cons_self] at hdigit
  cases hdigit

/-- Nothing that a field could begin with can be read. -/
theorem not_reads_brace {cs : List Char} (hcs : ∀ c ∈ cs, isNameChar c = true) :
    ¬s.Reads ('{' :: cs) := by
  intro hread
  have hbrace : isBlank '{' = false := by decide
  have hgap : (s.grammar point).accepts ('{' :: cs ++ s.filling) = false := by
    rw [Bool.eq_false_iff, ne_eq, accepts_iff_reads]
    exact not_reads_filling hbrace cs
  have hwhole : s.Reads ('{' :: cs ++ s.filling ++ ['}']) := by
    refine .field (cs ++ s.filling) ?_ ?_ ?_
    · rw [List.cons_append, trim_cons_append_singleton hbrace (cs ++ s.filling) (by decide)]
      rfl
    · have hlong : s.filling ≠ [] := by simp [filling]
      exact List.append_ne_nil_of_right_ne_nil cs hlong
    · intro c hc
      rcases List.mem_append.1 hc with hmem | hmem
      · exact hcs c hmem
      · exact (of_mem_filling hmem).2.2.1
  obtain ⟨held, -, hmisread⟩ :=
    exists_misreads hkeeps hbrace (accepts_iff_reads.2 hread) hgap (accepts_iff_reads.2 hwhole)
  obtain ⟨hrun, -⟩ := Grammar.isDigitRun_of_misreads hmisread
  simp [isDigitRun] at hrun

theorem gapless_of_keeps (htokens : ∀ t ∈ s.tokens, IsToken t) : s.Gapless point := by
  have htoken : ∀ t ∈ s.tokens, s.Reads t.toList := by
    intro t ht
    exact .token t ht (htokens t ht).2
  constructor
  case words =>
    intro w hw
    obtain ⟨hread, c, cs, rfl, hc⟩ := reads_of_mem_words htokens hw
    exact hkeeps c cs hc (accepts_iff_reads.2 hread)
  case fields =>
    intro t ht hhead
    obtain ⟨cs, hcs⟩ := List.head?_eq_some_iff.1 hhead
    by_contra hnone
    have hplain : ∀ c ∈ cs, isNameChar c = true := by
      intro c hc
      rw [← Bool.not_eq_false]
      intro hname
      exact hnone ⟨c, by rw [hcs]; exact hc, hname⟩
    have hread := htoken t ht
    rw [hcs] at hread
    exact not_reads_brace hkeeps hplain hread
  case strings =>
    intro hquote t ht hhead
    obtain ⟨cs, hcs⟩ := List.head?_eq_some_iff.1 hhead
    by_contra hnone
    rw [hcs] at hnone
    have hread := htoken t ht
    rw [hcs] at hread
    exact not_reads_open hkeeps hquote hnone hread
  case quote =>
    intro hquote
    refine ⟨isDigit_quote_eq_false hkeeps hquote, ?_, ?_⟩
    · intro hbrace
      have hname : isNameChar 'a' = true := by decide
      have hread : s.Reads (s.quote :: ['a', '}']) := by
        rw [hbrace]
        refine .field ['a'] (by decide) (List.cons_ne_nil 'a' []) ?_
        intro c hc
        rw [List.mem_singleton.1 hc]
        exact hname
      have hplain : s.quote ∉ ['a', '}'] := by rw [hbrace]; decide
      exact not_reads_open hkeeps hquote hplain hread
    · intro hb w hw hhead
      obtain ⟨cs, rfl⟩ := List.head?_eq_some_iff.1 hhead
      exact not_reads_open hkeeps hquote (head_not_mem_of_mem_truthWords hw) (.truth hb hw)

end Gaps

/-! ## The grammars that take the longest match -/

/-- For settings in which tokens are not empty and have no blanks around them: in every expression each
unit that is merged is read from the longest text that can be read there, exactly if the settings leave
no gaps. -/
theorem takesLongest_iff_gapless [Reducer ρ] (htokens : ∀ t ∈ s.tokens, IsToken t) :
    (s.grammar point).TakesLongest ↔ s.Gapless point := by
  rw [Grammar.takesLongest_iff_keeps]
  constructor
  · intro hkeeps
    exact gapless_of_keeps hkeeps htokens
  · intro hgapless c cs hc hread
    exact hgapless.keeps hc hread

/-- Tokens may begin with each other as long as every step between them can be read. -/
theorem takesLongest_comparisons :
    let s : Settings := { operators := [⟨"<", 20⟩, ⟨"<=", 20⟩, ⟨"= =", 20⟩, ⟨"=", 20⟩, ⟨"and", 10⟩] }
    (∀ t ∈ s.tokens, IsToken t) ∧ (s.grammar PointRule.join).TakesLongest := by
  intro s
  have htokens : ∀ t ∈ s.tokens, IsToken t := by decide +kernel
  have hgapless : s.Gapless PointRule.join := by decide +kernel
  exact ⟨htokens, (takesLongest_iff_gapless htokens).2 hgapless⟩

/-- `{a}==={b}` with the tokens `=` and `===`: the longer token can be read behind the field, but three of
the shorter one are merged. -/
theorem not_takesLongest_tripleEquals :
    let s : Settings := { operators := [⟨"=", 20⟩, ⟨"===", 20⟩] }
    let g : Grammar PointRule := s.grammar .join
    let equal : Operator PointRule := ⟨"=", 20, .binary⟩
    (∀ t ∈ s.tokens, IsToken t) ∧ g.accepts "===".toList = true ∧
      compile g "{a}==={b}" =
        .ok (.node equal (.node equal (.node equal (.leaf (.field "a")) .hole) .hole) (.leaf (.field "b"))) ∧
      ¬g.TakesLongest := by
  intro s g equal
  have htokens : ∀ t ∈ s.tokens, IsToken t := by decide +kernel
  have hlonger : g.accepts "===".toList = true := by decide +kernel
  refine ⟨htokens, hlonger, by decide +kernel, ?_⟩
  intro hlaw
  -- the longer token would have to be kept whole
  have hkept : g.keeps ('=' :: "==".toList) = true :=
    Grammar.takesLongest_iff_keeps.1 hlaw '=' "==".toList (by decide) hlonger
  have hcut : g.keeps ('=' :: "==".toList) = false := by decide +kernel
  rw [hcut] at hkept
  cases hkept

end Settings

end FilterLang
