import FilterLang.Proofs.Compile.Operators
import FilterLang.Proofs.Expr.Precedence
import FilterLang.Proofs.Grammar.Tiling
import FilterLang.Proofs.Table.InvalidOperands

/-!
# Operands that do not fit, in compiled expressions

An operator whose operands do not fit is reported under its usual name.  With any other token that can be
written there is an expression of which the report is untrue: three strings with the token between them, in a
grammar that has nothing but the operator and a quote.  A comparison is no side of another one, and a string is
no condition, so none of the usual operators takes all of its operands there.  Hence reports are true of all
compiled expressions exactly if the operators are registered under their usual names (`invalidOperands_reports`).
-/

namespace FilterLang

open Text

variable {ρ : Type}

/-! ## Tokens that can be written -/

/-- Whether the token can be met in a text: it is not empty, and no blank stands at its ends. -/
def Writable (token : String) : Prop :=
  token.toList ≠ [] ∧ trim token.toList = token.toList

theorem writable_of_compile [Reducer ρ] {g : Grammar ρ} {expression : String} {tree : Tree ρ}
    (h : compile g expression = .ok tree) {op : Operator ρ} (hop : op ∈ tree.operators) :
    Writable op.token := by
  obtain ⟨piece, hmem, hread⟩ := exists_piece_of_compile h hop
  obtain ⟨c, cs, rfl, hc⟩ := exists_cons_of_mem_pieces hmem
  obtain ⟨-, htoken⟩ := Grammar.token_of_read? hread
  rw [Writable, ← htoken, String.toList_ofList, trim_trim_cons hc]
  refine ⟨?_, rfl⟩
  rw [trim_cons hc]
  exact List.cons_ne_nil _ _

theorem Writable.exists_cons {token : String} (h : Writable token) :
    ∃ c cs, token.toList = c :: cs ∧ isBlank c = false := by
  obtain ⟨hne, htrim⟩ := h
  obtain ⟨c, cs, hcons⟩ := List.exists_cons_of_ne_nil hne
  rw [hcons] at htrim
  exact ⟨c, cs, hcons, isBlank_head_of_trim_eq_self htrim⟩

/-! ## A grammar with one operator -/

/-- The grammar that has only the operator, and strings with the quote. -/
def quoteGrammar (op : Operator ρ) (quote : Char) : Grammar ρ :=
  ⟨[.operator op, .string quote]⟩

/-- Whether the operator can be written and is told from a string by its first character. -/
structure Apart (op : Operator ρ) (quote : Char) : Prop where
  writable : Writable op.token
  isBlank_quote : isBlank quote = false
  head : op.token.toList.head? ≠ some quote

theorem exists_apart (op : Operator ρ) (h : Writable op.token) : ∃ quote, Apart op quote := by
  by_cases hhead : op.token.toList.head? = some '"'
  · refine ⟨'\'', h, by decide, ?_⟩
    rw [hhead]
    decide
  · exact ⟨'"', h, by decide, hhead⟩

/-- The empty string between its quotes. -/
def emptyString (quote : Char) : Operand :=
  .literal (String.ofList [quote, quote]) (.string "")

namespace Apart

variable {op : Operator ρ} {quote : Char} {rest : List Char}

/-- A text that begins with the quote can only be a string. -/
theorem read?_quote (h : Apart op quote) (cs : List Char) :
    (quoteGrammar op quote).read? (quote :: cs) = (Pattern.string quote).read? (quote :: cs) := by
  refine Grammar.read?_eq_of_mayBegin (by simp [quoteGrammar]) h.isBlank_quote ?_ cs
  intro p hp
  rcases List.mem_cons.1 hp with rfl | hp
  · exact .inr (by simpa [Pattern.mayBegin] using h.head)
  · exact .inl (List.mem_singleton.1 hp)

/-- A text that begins like the token can only be the operator. -/
theorem read?_token (h : Apart op quote) {c : Char} {cs : List Char} (htoken : op.token.toList = c :: cs)
    (more : List Char) :
    (quoteGrammar op quote).read? (c :: more) = (Pattern.operator op).read? (c :: more) := by
  have hc : isBlank c = false := by
    have htrim := h.writable.2
    rw [htoken] at htrim
    exact isBlank_head_of_trim_eq_self htrim
  have hne : c ≠ quote := by
    rintro rfl
    exact h.head (by rw [htoken, List.head?_cons])
  refine Grammar.read?_eq_of_mayBegin (by simp [quoteGrammar]) hc ?_ more
  intro p hp
  rcases List.mem_cons.1 hp with rfl | hp
  · exact .inl rfl
  · rw [List.mem_singleton.1 hp]
    exact .inr (by simpa [Pattern.mayBegin] using hne)

theorem read?_quotes (h : Apart op quote) :
    (quoteGrammar op quote).read? [quote, quote] = some (.ok (.operand (emptyString quote))) := by
  have htrim : trim [quote, quote] = [quote, quote] :=
    trim_cons_append_singleton h.isBlank_quote [] h.isBlank_quote
  rw [h.read?_quote, Pattern.read?, Pattern.readString?, htrim]
  simp [between?, emptyString]

theorem read?_operator (h : Apart op quote) :
    (quoteGrammar op quote).read? op.token.toList = some (.ok (.operator op)) := by
  obtain ⟨c, cs, htoken, -⟩ := h.writable.exists_cons
  have hread : (quoteGrammar op quote).read? op.token.toList = (Pattern.operator op).read? op.token.toList := by
    rw [htoken]
    exact h.read?_token htoken cs
  rw [hread, Pattern.read?, h.writable.2, String.ofList_toList, if_pos rfl]

/-- The empty string ends in front of everything but a blank. -/
theorem nextPiece_quotes (h : Apart op quote) (hrest : ∀ d ∈ rest.head?, isBlank d = false) :
    NextPiece (quoteGrammar op quote).accepts [quote, quote] rest := by
  have haccepts : ∀ cs, (quoteGrammar op quote).accepts (quote :: cs) = true ↔
      Pattern.Bracketed quote quote (quote :: cs) := by
    intro cs
    rw [Grammar.accepts, h.read?_quote, Pattern.isSome_read?_string]
  refine ⟨⟨quote, rfl, h.isBlank_quote⟩, ?_, ?_⟩
  · intro front c back heq hfront hstops
    have hbrackets : quote :: ([] ++ [quote]) = front ++ c :: back := heq
    obtain ⟨held, rfl, -⟩ := Pattern.front_of_brackets hbrackets hfront
    exact Pattern.not_bracketed_front h.isBlank_quote List.not_mem_nil hbrackets hfront
      ((haccepts held).1 hstops.1)
  · intro d hd
    refine ⟨?_, ?_⟩
    · rw [Grammar.accepts, h.read?_quotes]
      rfl
    · rw [← Bool.not_eq_true]
      intro hmore
      have hlonger : ¬Pattern.Bracketed quote quote (quote :: ([] ++ [quote]) ++ [] ++ [d]) :=
        Pattern.not_bracketed_append h.isBlank_quote [] (hrest d hd)
      exact hlonger ((haccepts _).1 hmore)

/-- So does the token. -/
theorem nextPiece_token (h : Apart op quote) (hrest : ∀ d ∈ rest.head?, isBlank d = false) :
    NextPiece (quoteGrammar op quote).accepts op.token.toList rest := by
  obtain ⟨c, cs, htoken, hc⟩ := h.writable.exists_cons
  have haccepts : ∀ more, (quoteGrammar op quote).accepts (c :: more) = true ↔
      trim (c :: more) = op.token.toList := by
    intro more
    rw [Grammar.accepts, h.read?_token htoken, Pattern.isSome_read?_operator]
  refine ⟨⟨c, by rw [htoken]; rfl, hc⟩, ?_, ?_⟩
  · -- a part of the token is shorter than the token
    intro front d back heq hfront hstops
    obtain ⟨o, held, rfl⟩ := List.exists_cons_of_ne_nil hfront
    rw [htoken, List.cons_append] at heq
    obtain ⟨rfl, -⟩ := List.cons.inj heq
    have hlen := (trim_sublist (c :: held)).length_le
    rw [(haccepts held).1 hstops.1, htoken, heq] at hlen
    simp only [List.length_cons, List.length_append] at hlen
    omega
  · intro d hd
    refine ⟨?_, ?_⟩
    · rw [Grammar.accepts, h.read?_operator]
      rfl
    · rw [← Bool.not_eq_true, htoken, List.cons_append, haccepts, ← List.cons_append,
        trim_cons_append_singleton hc cs (hrest d hd), htoken]
      simp

end Apart

/-! ## An expression that does not fit -/

section Twice

variable (op : Operator ρ) (quote : Char)

/-- The operator twice, between empty strings. -/
def twiceChars : List Char :=
  [quote, quote] ++ (op.token.toList ++ ([quote, quote] ++ (op.token.toList ++ [quote, quote])))

/-- The tree of this text. -/
def twiceTree : Tree ρ :=
  .node op (.node op (.leaf (emptyString quote)) (.leaf (emptyString quote))) (.leaf (emptyString quote))

variable {op quote}

/-- The text falls apart into the empty strings and the tokens, since none of them goes on in the next. -/
theorem pieces_twiceChars (h : Apart op quote) :
    pieces (quoteGrammar op quote).accepts [] (twiceChars op quote) =
      [[quote, quote], op.token.toList, [quote, quote], op.token.toList, [quote, quote]] := by
  obtain ⟨c, cs, htoken, hc⟩ := h.writable.exists_cons
  have hquotes : ∀ rest, (∀ d ∈ rest.head?, isBlank d = false) →
      pieces (quoteGrammar op quote).accepts [] ([quote, quote] ++ rest) =
        [quote, quote] :: pieces (quoteGrammar op quote).accepts [] rest :=
    fun rest hrest => (h.nextPiece_quotes hrest).pieces_eq
  have hoperator : ∀ rest,
      pieces (quoteGrammar op quote).accepts [] (op.token.toList ++ ([quote, quote] ++ rest)) =
        op.token.toList :: pieces (quoteGrammar op quote).accepts [] ([quote, quote] ++ rest) := by
    intro rest
    refine (h.nextPiece_token ?_).pieces_eq
    intro d hd
    cases hd
    exact h.isBlank_quote
  have hfront : ∀ rest : List Char, ∀ d ∈ (op.token.toList ++ rest).head?, isBlank d = false := by
    intro rest d hd
    rw [htoken] at hd
    cases hd
    exact hc
  rw [twiceChars, hquotes _ (hfront _), hoperator, hquotes _ (hfront _)]
  have hlast := hoperator []
  rw [List.append_nil] at hlast
  have hend := hquotes [] (by simp)
  rw [List.append_nil] at hend
  rw [hlast, hend]
  rfl

theorem compile_twice [Reducer ρ] (h : Apart op quote) (hkind : op.kind = .binary) :
    compile (quoteGrammar op quote) (String.ofList (twiceChars op quote)) = .ok (twiceTree op quote) := by
  have hread : (quoteGrammar op quote).ReadsAs
      (pieces (quoteGrammar op quote).accepts [] (String.ofList (twiceChars op quote)).toList)
      [.operand (emptyString quote), .operator op, .operand (emptyString quote), .operator op,
        .operand (emptyString quote)] := by
    rw [String.toList_ofList, pieces_twiceChars h]
    exact .cons h.read?_quotes <| .cons h.read?_operator <| .cons h.read?_quotes <|
      .cons h.read?_operator <| .cons h.read?_quotes .nil
  have hmerged := ofLexemes_eq_precedenceTree (emptyString quote)
    [⟨op, emptyString quote⟩, ⟨op, emptyString quote⟩] (by simp [hkind])
  -- of two operators with one weight the second is cut first
  have htree : precedenceTree (emptyString quote)
      [⟨op, emptyString quote⟩, ⟨op, emptyString quote⟩] = twiceTree op quote := by
    simp [precedenceTree, LightestSplit.ofCons, twiceTree]
  have hcount : 2 ≤ maxOperators := by decide
  rw [htree] at hmerged
  exact compile_of_readsAs hread hcount hmerged rfl

variable (op quote)

/-- Whichever operator it is, it cannot take all of its operands: a comparison is no side of another one, and a
string is no condition. -/
theorem bind_twice {tokens : Keyed Connective} {c : Connective} (hkind : op.kind = .binary)
    (hget : tokens.get? op.token = some c) (t : Table) :
    ∃ l r, t.bind (Table.spelled tokens) (twiceTree op quote) =
      .error (.refused (.invalidOperands c.name l r)) := by
  have hmeaning : (Table.spelled tokens).get? op.token = some c.meaning :=
    Table.get?_spelled_eq_some_iff.2 ⟨c, hget, rfl⟩
  have hnode : ∀ left right : Tree ρ, left.isHole = false → right.isHole = false →
      Tree.check (Table.spelled tokens) op left right = .ok c.meaning := by
    intro left right hleft hright
    exact Tree.check_eq_ok_iff.2 ⟨hkind, hmeaning, hleft, hright⟩
  have hevaluate : ∃ l r, t.evaluate (Table.spelled tokens) (twiceTree op quote) =
      .error (.invalidOperands c.name l r) := by
    rw [twiceTree, Table.evaluate_node, hnode _ _ rfl rfl, Table.evaluate_node, hnode _ _ rfl rfl]
    cases c with
    | equal => exact ⟨.predicate, .string, rfl⟩
    | and => exact ⟨.string, .string, rfl⟩
    | or => exact ⟨.string, .string, rfl⟩
  obtain ⟨l, r, hreport⟩ := hevaluate
  exact ⟨l, r, Table.bind_eq_invalidOperands_iff.2 hreport⟩

end Twice

/-! ## Reports -/

theorem Table.exists_token_of_hasOperands {t : Table} {vocabulary : Vocabulary Id Column Condition}
    {tree : Tree ρ} {token : String} {l r : OperandType} (h : t.HasOperands vocabulary tree token l r) :
    ∃ op ∈ tree.operators, op.token = token := by
  obtain ⟨op, left, right, -, -, hmem, htoken, -⟩ := h
  exact ⟨op, Tree.mem_operators_iff.2 ⟨left, right, hmem⟩, htoken⟩

/-- Whether every report of operands that do not fit is true of the expression: some operator in it has the
token that is named, and its sides are bound to operands of the types that are named. -/
def ReportsTokens (ρ : Type) [Reducer ρ] (tokens : Keyed Connective) : Prop :=
  ∀ (g : Grammar ρ) expression tree, compile g expression = .ok tree →
    ∀ (t : Table) operator l r,
      t.bind (Table.spelled tokens) tree = .error (.refused (.invalidOperands operator l r)) →
        t.HasOperands (Table.spelled tokens) tree operator l r

/-- What is reported of operands that do not fit is true of some operator in the tree that cannot take them,
except that this operator is named as it is usually written.  So reports are true of all compiled expressions
exactly if every token that can be written is the usual one of its operator. -/
theorem invalidOperands_reports [Reducer ρ] (tokens : Keyed Connective) :
    (∀ (t : Table) (tree : Tree ρ) operator l r,
      t.bind (Table.spelled tokens) tree = .error (.refused (.invalidOperands operator l r)) →
        t.Blamed tokens tree operator l r) ∧
    (ReportsTokens ρ tokens ↔
      ∀ token c, tokens.get? token = some c → Writable token → token = c.name) := by
  refine ⟨fun t tree operator l r h => Table.exists_blamed_of_bind h, ?_, ?_⟩
  · intro hreports token c hget hwritable
    -- with its only operator twice, the expression names no other token
    let op : Operator ρ := ⟨token, 20, .binary⟩
    obtain ⟨quote, hapart⟩ := exists_apart op hwritable
    have hcompiled := compile_twice hapart rfl
    obtain ⟨l, r, hbind⟩ := bind_twice op quote rfl hget {}
    obtain ⟨o, ho, hname⟩ :=
      Table.exists_token_of_hasOperands (hreports _ _ _ hcompiled {} c.name l r hbind)
    have hop : o = op := by simpa [twiceTree, Tree.operators] using ho
    rw [← hname, hop]
  · intro husual g expression tree hcompiled t operator l r hbind
    obtain ⟨c, op, left, right, a, b, hmem, hget, hname, ha, hb, hl, hr, -⟩ :=
      Table.exists_blamed_of_bind hbind
    have hop : op ∈ tree.operators := Tree.mem_operators_iff.2 ⟨left, right, hmem⟩
    have htoken : op.token = c.name := husual _ c hget (writable_of_compile hcompiled hop)
    exact ⟨op, left, right, a, b, hmem, htoken.trans hname, ha, hb, hl, hr⟩

/-- The usual tokens, with which reports are true; so is what they blame in `1 and {a}`. -/
theorem invalidOperands_reports_usual :
    let tree : Tree PointRule :=
      .node ⟨"and", 10, .binary⟩ (.leaf (.literal "1" (.integer 1))) (.leaf (.field "a"))
    let t : Table := { columns := ["a"] }
    Table.spelled Connective.usualTokens = Table.vocabulary ∧
      ReportsTokens PointRule Connective.usualTokens ∧
      t.bind Table.vocabulary tree = .error (.refused (.invalidOperands "and" .integer .field)) ∧
      t.Blamed Connective.usualTokens tree "and" .integer .field := by
  intro tree t
  obtain ⟨hblamed, hreports⟩ := invalidOperands_reports (ρ := PointRule) Connective.usualTokens
  have hbind : t.bind Table.vocabulary tree =
      .error (.refused (.invalidOperands "and" .integer .field)) := by rfl
  refine ⟨Table.spelled_usualTokens, hreports.2 ?_, hbind, hblamed t tree _ _ _ ?_⟩
  · intro token c hget _
    exact Connective.get?_usualTokens_eq_some_iff.1 hget
  · rw [Table.spelled_usualTokens]
    exact hbind

/-- With the token `==` for comparisons, `1 == 2 == 3` is refused with a report of an operator `=`, which is
not there. -/
theorem not_reportsTokens_doubleEquals :
    let tokens : Keyed Connective := .ofList [("==", .equal)]
    let settings : Settings := { operators := [⟨"==", 20⟩] }
    let op : Operator PointRule := ⟨"==", 20, .binary⟩
    let number (text : String) (value : Int64) : Tree PointRule := .leaf (.literal text (.integer value))
    let tree := Tree.node op (.node op (number "1" 1) (number "2" 2)) (number "3" 3)
    let t : Table := {}
    compile (settings.grammar PointRule.join) "1 == 2 == 3" = .ok tree ∧
      t.bind (Table.spelled tokens) tree = .error (.refused (.invalidOperands "=" .predicate .integer)) ∧
      ¬t.HasOperands (Table.spelled tokens) tree "=" .predicate .integer ∧
      ¬ReportsTokens PointRule tokens := by
  intro tokens settings op number tree t
  have hcompiled : compile (settings.grammar PointRule.join) "1 == 2 == 3" = .ok tree := by decide +kernel
  have hbind : t.bind (Table.spelled tokens) tree =
      .error (.refused (.invalidOperands "=" .predicate .integer)) := by rfl
  have hnone : ¬t.HasOperands (Table.spelled tokens) tree "=" .predicate .integer := by
    intro hoperands
    obtain ⟨o, ho, htoken⟩ := Table.exists_token_of_hasOperands hoperands
    have hop : o = op := by simpa [tree, number, Tree.operators] using ho
    rw [hop] at htoken
    exact absurd htoken (by decide)
  refine ⟨hcompiled, hbind, hnone, ?_⟩
  intro hreports
  exact hnone (hreports _ _ _ hcompiled t _ _ _ hbind)

end FilterLang
