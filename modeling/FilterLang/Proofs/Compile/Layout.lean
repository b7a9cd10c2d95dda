import FilterLang.Proofs.Compile.Progress
import FilterLang.Proofs.Compile.Token
import Mathlib.Data.List.Chain
import Mathlib.Data.List.Forall2

/-!
# From tokens to tree

Tokens can be laid out with any blanks between them and around them, as long as digits are kept apart
from digits.  Compiling such a text does what taking in the tokens one by one does
(`compile_layout`): the pieces of the text are the tokens, up to blanks that make no difference
(`Layout.forall₂_pieces`), and every token adds to the tree, so that only the empty layout is empty.
-/

namespace FilterLang

open Text

/-! ## Layouts -/

/-- A token with the blanks behind it. -/
structure Placed where
  token : Token
  gap : List Char
  blank : Blank gap

/-- Only digits need a gap in front of digits. -/
def Placed.Apart (p q : Placed) : Prop :=
  p.token.isDigits = true → q.token.isDigits = true → p.gap ≠ []

instance (p q : Placed) : Decidable (p.Apart q) :=
  inferInstanceAs (Decidable (_ → _ → _))

/-- Tokens written one behind the other. -/
structure Layout where
  /-- The blanks in front of the first token -/
  lead : List Char
  blank : Blank lead
  placed : List Placed
  apart : placed.IsChain Placed.Apart

def Placed.chars (p : Placed) : List Char :=
  p.token.chars ++ p.gap

/-- The text of the layout. -/
def Layout.chars (l : Layout) : List Char :=
  l.lead ++ l.placed.flatMap Placed.chars

def Layout.tokens (l : Layout) : List Token :=
  l.placed.map Placed.token

/-! ## Tokens taken in one by one -/

/-- Takes in the next token: the unit it stands for is counted and merged. -/
def Progress.addToken (p : Progress PointRule) (t : Token) : Except ExprError (Progress PointRule) := do
  p.add (← t.unit)

/-- The tree of a list of tokens.  The first token that cannot be taken in says why there is none. -/
def Token.tree : List Token → Except ExprError (Tree PointRule)
  | [] => .error .empty
  | t :: rest => do
    let p ← (t :: rest).foldlM Progress.addToken {}
    return p.tree

/-- Whether all tokens in front of this one are taken in: these are the units that they stand for and the tree of
these units, and not too many of them are operators. -/
structure Token.Reached (tokens : List Token) (us : List (Lexeme PointRule)) (tree : Tree PointRule)
    (t : Token) : Prop where
  split : ∃ front back, tokens = front ++ t :: back ∧ List.Forall₂ (fun t u => t.unit = .ok u) front us
  merged : Tree.ofLexemes us = .ok tree
  room : us.countP Lexeme.isOperator ≤ maxOperators

/-- The causes for which a list of tokens has no tree: there are none, or one that is reached is refused. -/
inductive Token.Refusal (tokens : List Token) : ExprError → Prop where
  | empty (h : tokens = []) : Refusal tokens .empty
  /-- Digits that fit no 64-bit integer -/
  | overflow {us : List (Lexeme PointRule)} {tree : Tree PointRule} {run : List Char}
      {isRun : isDigitRun run = true} (reached : Reached tokens us tree (.digits run isRun))
      (h : Nat.pow 2 63 ≤ digitsValue run) : Refusal tokens (.integerOverflow (String.ofList run))
  /-- An operator for which there is no room -/
  | tooManyOperators {us : List (Lexeme PointRule)} {tree : Tree PointRule} {op : Operator PointRule}
      {standard : op ∈ standardOperators} (reached : Reached tokens us tree (.sign op standard))
      (full : us.countP Lexeme.isOperator = maxOperators) : Refusal tokens (.tooManyOperators maxOperators)
  /-- A unit that cannot be merged into the tree -/
  | merge {us : List (Lexeme PointRule)} {tree : Tree PointRule} {t : Token} {u : Lexeme PointRule}
      {e : ExprError} (reached : Reached tokens us tree t) (unit : t.unit = .ok u)
      (room : (us ++ [u]).countP Lexeme.isOperator ≤ maxOperators) (refused : tree.add u = .error e)
      (cause : Tree.MergeError e) : Refusal tokens e

theorem Progress.read_eq_addToken {piece : List Char} {t : Token}
    (h : Grammar.standard.read? piece = some t.unit) (p : Progress PointRule) :
    p.read Grammar.standard piece = p.addToken t := by
  rw [Progress.read, h, Progress.addToken]
  cases t.unit with
  | error e => rfl
  | ok u => rfl

theorem Progress.isHole_addToken {p q : Progress PointRule} {t : Token} (h : p.addToken t = .ok q) :
    q.tree.isHole = false := by
  obtain ⟨u, -, hadd⟩ := except_bind_eq_ok_iff.1 h
  exact isHole_add hadd

/-- Where there is a token, there is a tree. -/
theorem isHole_foldlM_addToken {t : Token} {rest : List Token} {p q : Progress PointRule}
    (h : (t :: rest).foldlM Progress.addToken p = .ok q) : q.tree.isHole = false := by
  rw [List.foldlM_cons] at h
  obtain ⟨first, hfirst, hrest⟩ := except_bind_eq_ok_iff.1 h
  exact foldlM_preserves (P := fun p => p.tree.isHole = false)
    (fun _ _ _ _ hadd => Progress.isHole_addToken hadd) (Progress.isHole_addToken hfirst) hrest

/-- Tokens that stand for units are taken in like these. -/
theorem Token.foldlM_addToken_eq {tokens : List Token} {us : List (Lexeme PointRule)}
    (hunits : List.Forall₂ (fun t u => t.unit = .ok u) tokens us) (p : Progress PointRule) :
    tokens.foldlM Progress.addToken p = us.foldlM Progress.add p := by
  induction hunits generalizing p with
  | nil => rfl
  | cons hunit _ ih =>
    rw [List.foldlM_cons, List.foldlM_cons, Progress.addToken, hunit]
    exact congrArg _ (funext ih)

/-- Tokens that are taken in stand for units. -/
theorem Token.exists_units {tokens : List Token} {p q : Progress PointRule}
    (h : tokens.foldlM Progress.addToken p = .ok q) :
    ∃ us, List.Forall₂ (fun t u => t.unit = .ok u) tokens us := by
  induction tokens generalizing p with
  | nil => exact ⟨[], .nil⟩
  | cons t rest ih =>
    rw [List.foldlM_cons] at h
    obtain ⟨next, hstep, hrest⟩ := except_bind_eq_ok_iff.1 h
    obtain ⟨u, hu, -⟩ := except_bind_eq_ok_iff.1 hstep
    obtain ⟨us, hus⟩ := ih hrest
    exact ⟨u :: us, .cons hu hus⟩

/-- Tokens that stand for units, not too many of them operators, have the tree of the units. -/
theorem Token.tree_eq_ofLexemes {tokens : List Token} {us : List (Lexeme PointRule)} (hne : us ≠ [])
    (hunits : List.Forall₂ (fun t u => t.unit = .ok u) tokens us)
    (hcount : us.countP Lexeme.isOperator ≤ maxOperators) : tree tokens = Tree.ofLexemes us := by
  cases hunits with
  | nil => exact absurd rfl hne
  | cons hunit hrest =>
    rw [tree, foldlM_addToken_eq (.cons hunit hrest), Progress.foldlM_add (by simpa using hcount),
      Tree.ofLexemes]
    show (Except.map _ (List.foldlM Tree.add .hole _) >>= _) = List.foldlM Tree.add .hole _
    cases List.foldlM Tree.add (.hole : Tree PointRule) _ with
    | error e => rfl
    | ok t => rfl

/-- A tree is there only if all tokens stand for units. -/
theorem Token.exists_unit_of_tree {tokens : List Token} {t : Tree PointRule} (h : tree tokens = .ok t) :
    ∀ token ∈ tokens, ∃ u, token.unit = .ok u := by
  cases tokens with
  | nil => cases h
  | cons first rest =>
    rw [tree] at h
    obtain ⟨q, hfold, -⟩ := except_bind_eq_ok_iff.1 h
    obtain ⟨us, hus⟩ := exists_units hfold
    intro token hmem
    obtain ⟨front, back, hsplit⟩ := List.append_of_mem hmem
    have hback := List.forall₂_drop front.length hus
    rw [hsplit, List.drop_left] at hback
    obtain ⟨u, -, hu, -⟩ := List.forall₂_cons_left_iff.1 hback
    exact ⟨u, hu⟩

/-! ## The pieces of a layout -/

/-- The next token begins with a character in front of which a piece may end. -/
theorem exists_head_flatMap (p : Placed) (rest : List Placed) :
    ∃ c, ((p :: rest).flatMap Placed.chars).head? = some c ∧ Token.Decides p.token.pattern c := by
  obtain ⟨c, cs, hchars, hc⟩ := p.token.exists_decides
  refine ⟨c, ?_, hc⟩
  simp [Placed.chars, hchars]

/-- The pieces of the text are the tokens one by one. -/
theorem forall₂_pieces {placed : List Placed} (h : placed.IsChain Placed.Apart) :
    List.Forall₂ (fun piece p => Grammar.standard.read? piece = some p.token.unit)
      (pieces Grammar.standard.accepts [] (placed.flatMap Placed.chars)) placed := by
  induction placed with
  | nil => exact .nil
  | cons p rest ih =>
    -- what follows begins with the next token, or there is nothing more
    have hrest : ∀ d ∈ (rest.flatMap Placed.chars).head?, isBlank d = false ∧
        (p.token.isDigits = true → p.gap = [] → d.isDigit = false) := by
      intro d hd
      cases rest with
      | nil => cases hd
      | cons q rest =>
        obtain ⟨c, hhead, hc⟩ := exists_head_flatMap q rest
        rw [hhead] at hd
        cases hd
        refine ⟨hc.not_blank, ?_⟩
        intro hp hgap
        rw [Bool.eq_false_iff]
        intro hdigit
        have hq := Token.isDigits_of_pattern (hc.integer_of_isDigit hdigit)
        exact (List.isChain_cons_cons.1 h).1 hp hq hgap
    obtain ⟨piece, hread, hpieces⟩ := p.token.exists_piece p.blank (fun d hd => (hrest d hd).1)
      (fun hp hgap d hd => (hrest d hd).2 hp hgap)
    rw [List.flatMap_cons, Placed.chars, hpieces]
    exact .cons hread (ih h.tail)

theorem Layout.forall₂_pieces (l : Layout) :
    List.Forall₂ (fun piece t => Grammar.standard.read? piece = some t.unit)
      (pieces Grammar.standard.accepts [] l.chars) l.tokens := by
  rw [Layout.chars, pieces_skip l.blank, Layout.tokens, List.forall₂_map_right_iff]
  exact FilterLang.forall₂_pieces l.apart

/-! ## Compiling a layout -/

/-- Pieces that are read as tokens are taken in like these. -/
theorem foldlM_read_eq {read : List (List Char)} {tokens : List Token}
    (h : List.Forall₂ (fun piece t => Grammar.standard.read? piece = some t.unit) read tokens)
    (p : Progress PointRule) :
    read.foldlM (Progress.read Grammar.standard) p = tokens.foldlM Progress.addToken p := by
  induction h generalizing p with
  | nil => rfl
  | cons hpiece _ ih =>
    rw [List.foldlM_cons, List.foldlM_cons, Progress.read_eq_addToken hpiece]
    exact congrArg _ (funext ih)

theorem compile_eq_tree (l : Layout) :
    compile Grammar.standard (String.ofList l.chars) = Token.tree l.tokens := by
  rw [compile, String.toList_ofList, foldlM_read_eq l.forall₂_pieces]
  cases l.tokens with
  | nil => rfl
  | cons t rest =>
    rw [Token.tree]
    cases hfold : (t :: rest).foldlM Progress.addToken {} with
    | error e => rfl
    | ok q =>
      -- the tree is none that compiling would call empty
      have hhole := isHole_foldlM_addToken hfold
      show (if q.tree.isHole = true then _ else _) = _
      rw [hhole]
      rfl

/-! ## Refusals -/

theorem Token.unit_eq_error {t : Token} {e : ExprError} (h : t.unit = .error e) :
    ∃ run isRun, t = .digits run isRun ∧ Nat.pow 2 63 ≤ digitsValue run ∧
      e = .integerOverflow (String.ofList run) := by
  cases t with
  | digits run isRun =>
    unfold unit at h
    dsimp only at h
    split at h
    · cases h
    · rename_i hover
      cases h
      exact ⟨run, isRun, rfl, Nat.not_lt.1 hover, rfl⟩
  | truth _ => cases h
  | sign _ _ => cases h
  | field _ _ _ => cases h
  | quoted _ _ => cases h

/-- The tokens in front of the one that is reached are taken in. -/
theorem Token.reached_iff {tokens : List Token} {us : List (Lexeme PointRule)} {tree : Tree PointRule}
    {t : Token} :
    Reached tokens us tree t ↔ ∃ front back, tokens = front ++ t :: back ∧
      List.Forall₂ (fun t u => t.unit = .ok u) front us ∧
        front.foldlM Progress.addToken {} = .ok ⟨tree, us.countP Lexeme.isOperator⟩ := by
  have htaken : us.foldlM Progress.add {} = .ok ⟨tree, us.countP Lexeme.isOperator⟩ ↔
      Tree.ofLexemes us = .ok tree ∧ us.countP Lexeme.isOperator ≤ maxOperators := by
    rw [Progress.foldlM_add_eq_ok_iff (Nat.zero_le _), Nat.zero_add]
    simp [Tree.ofLexemes]
  constructor
  · rintro ⟨⟨front, back, hsplit, hunits⟩, hmerged, hroom⟩
    exact ⟨front, back, hsplit, hunits, by rw [foldlM_addToken_eq hunits, htaken]; exact ⟨hmerged, hroom⟩⟩
  · rintro ⟨front, back, hsplit, hunits, hfront⟩
    rw [foldlM_addToken_eq hunits, htaken] at hfront
    exact ⟨⟨front, back, hsplit, hunits⟩, hfront.1, hfront.2⟩

/-- A list of tokens has no tree if it is empty, and otherwise for the first token that is refused. -/
theorem Token.tree_eq_error_iff {tokens : List Token} {e : ExprError} :
    tree tokens = .error e ↔ (tokens = [] ∧ e = .empty) ∨
      ∃ us t token, Reached tokens us t token ∧
        Progress.addToken ⟨t, us.countP Lexeme.isOperator⟩ token = .error e := by
  have hfold : tree tokens = .error e ↔
      (tokens = [] ∧ e = .empty) ∨ tokens.foldlM Progress.addToken {} = .error e := by
    cases tokens with
    | nil => simp [tree, eq_comm, pure, Except.pure]
    | cons first rest =>
      rw [tree, except_bind_eq_error_iff]
      simp [pure, Except.pure]
  rw [hfold]
  refine or_congr_right ⟨?_, ?_⟩
  · intro h
    obtain ⟨front, token, back, p, hsplit, hfront, hstep⟩ := foldlM_eq_error h
    obtain ⟨us, hunits⟩ := exists_units hfront
    have hcount : p = ⟨p.tree, us.countP Lexeme.isOperator⟩ := by
      rw [foldlM_addToken_eq hunits, Progress.foldlM_add_eq_ok_iff (Nat.zero_le _), Nat.zero_add] at hfront
      rw [← hfront.2.1]
    rw [hcount] at hfront hstep
    exact ⟨us, p.tree, token, reached_iff.2 ⟨front, back, hsplit, hunits, hfront⟩, hstep⟩
  · rintro ⟨us, t, token, hreached, hstep⟩
    obtain ⟨front, back, rfl, -, hfront⟩ := reached_iff.1 hreached
    exact foldlM_eq_error_of_step hfront hstep

theorem Token.unit_eq_operator_iff {t : Token} {op : Operator PointRule} :
    t.unit = .ok (.operator op) ↔ ∃ standard, t = .sign op standard := by
  cases t with
  | digits run isRun =>
    simp only [unit]
    split <;> simp
  | truth _ => simp [unit]
  | sign op' standard =>
    simp only [unit, Except.ok.injEq, Lexeme.operator.injEq, sign.injEq]
    constructor
    · rintro rfl
      exact ⟨standard, rfl⟩
    · rintro ⟨-, h⟩
      exact h
  | field _ _ _ => simp [unit]
  | quoted _ _ => simp [unit]

/-- These are all the causes that there are, and each of them is one. -/
theorem Token.tree_eq_error_iff_refusal {tokens : List Token} {e : ExprError} :
    tree tokens = .error e ↔ Refusal tokens e := by
  have hcount : ∀ (us : List (Lexeme PointRule)) (t : Tree PointRule) (u : Lexeme PointRule),
      Progress.operatorsWith ⟨t, us.countP Lexeme.isOperator⟩ u = (us ++ [u]).countP Lexeme.isOperator := by
    intro us t u
    rw [Progress.operatorsWith, List.countP_append, List.countP_singleton]
  simp only [tree_eq_error_iff, Progress.addToken, except_bind_eq_error_iff, Progress.add_eq_error_iff, hcount]
  constructor
  · rintro (⟨hnil, rfl⟩ | ⟨us, t, token, hreached, hunit | ⟨u, hunit, ⟨hover, rfl⟩ | ⟨hroom, hmerge⟩⟩⟩)
    · exact .empty hnil
    · obtain ⟨run, isRun, rfl, hover, rfl⟩ := unit_eq_error hunit
      exact .overflow hreached hover
    · -- up to there the limit was kept, so it is an operator
      have hroom := hreached.room
      rw [List.countP_append, List.countP_singleton] at hover
      cases u with
      | operand x => exact absurd hroom (Nat.not_le.2 hover)
      | operator op =>
        obtain ⟨standard, rfl⟩ := unit_eq_operator_iff.1 hunit
        have hfull : maxOperators < us.countP Lexeme.isOperator + 1 := hover
        exact .tooManyOperators hreached (by omega)
    · exact .merge hreached hunit hroom hmerge (Tree.mergeError_add hmerge)
  · intro h
    cases h with
    | empty hnil => exact .inl ⟨hnil, rfl⟩
    | @overflow us t run isRun hreached hover =>
      refine .inr ⟨us, t, _, hreached, .inl ?_⟩
      rw [unit, if_neg (Nat.not_lt.2 hover)]
    | @tooManyOperators us t op standard hreached hfull =>
      refine .inr ⟨us, t, _, hreached, .inr ⟨.operator op, rfl, .inl ⟨?_, rfl⟩⟩⟩
      rw [List.countP_append, hfull]
      exact Nat.lt_succ_self _
    | @merge us t token u _ hreached hunit hroom hmerge _ =>
      exact .inr ⟨us, t, token, hreached, .inr ⟨u, hunit, .inr ⟨hroom, hmerge⟩⟩⟩

/-- However tokens are laid out, each of them alone is read as the unit that it stands for, and the
text is compiled to what comes of taking in these units from left to right, be it a tree or the first
refusal; no token is ever unmatched. -/
theorem compile_layout (l : Layout) :
    (∀ t ∈ l.tokens, Grammar.standard.read? t.chars = some t.unit) ∧
      compile Grammar.standard (String.ofList l.chars) = Token.tree l.tokens ∧
      ∀ e, compile Grammar.standard (String.ofList l.chars) = .error e ↔ Token.Refusal l.tokens e := by
  refine ⟨fun t _ => t.read?_chars, compile_eq_tree l, ?_⟩
  intro e
  rw [compile_eq_tree]
  exact Token.tree_eq_error_iff_refusal

/-- Digits behind digits are told apart by the tab between them.  Both runs are operands of an operator in front of
them; without one the second is refused. -/
theorem compile_layout_digitRuns :
    let equal : Operator PointRule := ⟨"=", 20, .binary⟩
    let leaf (text : String) (value : Int64) : Tree PointRule := .leaf (.literal text (.integer value))
    let runs : List Placed :=
      [⟨.digits ['1', '2'] (by decide), ['\t'], by decide⟩, ⟨.digits ['5'] (by decide), [' '], by decide⟩]
    let alone : Layout := ⟨[' '], by decide, runs, by decide⟩
    let compared : Layout :=
      ⟨[' '], by decide, ⟨.sign equal (by decide), [], by decide⟩ :: runs, by decide⟩
    compile Grammar.standard " =12\t5 " = .ok (.node equal (leaf "12" 12) (leaf "5" 5)) ∧
      compile Grammar.standard " =12\t5 " = Token.tree compared.tokens ∧
      compile Grammar.standard " 12\t5 " = .error (.strayOperand "5") ∧
      Token.Refusal alone.tokens (.strayOperand "5") := by
  intro equal leaf runs alone compared
  have halone : String.ofList alone.chars = " 12\t5 " := by rfl
  have hcompared : String.ofList compared.chars = " =12\t5 " := by
    simp [compared, runs, equal, Layout.chars, Placed.chars, Token.chars]
  obtain ⟨-, htree, -⟩ := compile_layout compared
  obtain ⟨-, -, hrefusal⟩ := compile_layout alone
  rw [hcompared] at htree
  have hrefused : compile Grammar.standard " 12\t5 " = .error (.strayOperand "5") := by decide +kernel
  refine ⟨by decide +kernel, htree, hrefused, ?_⟩
  rw [← hrefusal, halone]
  exact hrefused

end FilterLang
