import FilterLang.Proofs.Compile.Layout
import FilterLang.Proofs.Expr.Reduction
import FilterLang.Proofs.Number.Pointed

/-!
# A number compared with a field

In an expression a number with a point is three units: two integers and the operator that joins them.
Alone it is compiled to what the join gives (`PointedNumber.compile_text`), and on the right of a
comparison it is joined before it is compared (`PointedNumber.compile_comparisonText`), because the join
weighs more.  A text that is compiled to a decimal is read as that decimal
(`PointedNumber.ofText?_of_compile`).
-/

namespace FilterLang

/-! ## The operators -/

/-- The operator that makes decimals. -/
def pointOperator : Operator PointRule :=
  ⟨".", 30, .transform [.join]⟩

def equalOperator : Operator PointRule :=
  ⟨"=", 20, .binary⟩

/-- The operand that a run of digits is. -/
def integerOperand (run : List Char) : Operand :=
  .literal (String.ofList run) (.integer (Int64.ofNat (digitsValue run)))

theorem Token.unit_digits_eq_ok_iff {run : List Char} {isRun : isDigitRun run = true}
    {u : Lexeme PointRule} :
    (Token.digits run isRun).unit = .ok u ↔
      digitsValue run < Nat.pow 2 63 ∧ .operand (integerOperand run) = u := by
  unfold Token.unit
  dsimp only
  split
  · rename_i hfits
    simp [hfits, integerOperand]
  · rename_i hover
    simp [hover]

namespace PointedNumber

/-! ## The join -/

/-- The literal that the number is, as the decimal `d`. -/
def literal (n : PointedNumber) (d : Decimal) : Operand :=
  .literal n.text (.decimal d)

/-- The digits in front of the point. -/
def front (n : PointedNumber) : Operand :=
  integerOperand n.whole

/-- The point and the digits behind it. -/
def back (n : PointedNumber) : Link PointRule :=
  ⟨pointOperator, integerOperand n.fraction⟩

/-- The join succeeds exactly if the text is read as a decimal. -/
theorem reduce_back_eq_ok_iff (n : PointedNumber) {x : Operand} :
    n.back.reduce n.front = .ok x ↔ ∃ d, Decimal.ofText? n.chars = some d ∧ x = n.literal d := by
  have hrules : (n.back.op.rules.findSome? fun rule =>
      Reducer.reduce rule (.leaf n.front) (.leaf n.back.operand)) =
        (Decimal.ofText? n.chars).map n.literal := by
    have hjoin : joinAsDecimal (.leaf n.front : Tree PointRule) (.leaf n.back.operand) =
        (Decimal.ofText? n.chars).map n.literal :=
      joinAsDecimal_integers n.whole n.fraction _ _
    rw [← hjoin]
    have hop : n.back.op.rules = [.join] := rfl
    rw [hop, List.findSome?_cons]
    simp only [Reducer.reduce, List.findSome?_nil]
    split
    · rename_i h
      rw [h]
    · rename_i h
      rw [h]
  rw [Link.reduce, hrules]
  cases Decimal.ofText? n.chars with
  | none => simp
  | some d => simp [eq_comm]

/-! ## Layouts -/

/-- Two runs of digits and the point between them. -/
def layout (n : PointedNumber) : Layout where
  lead := []
  blank := by simp [Text.Blank]
  placed := [⟨.digits n.whole n.isDigitRun_whole, [], by simp [Text.Blank]⟩,
    ⟨.sign pointOperator (by decide), [], by simp [Text.Blank]⟩,
    ⟨.digits n.fraction n.isDigitRun_fraction, [], by simp [Text.Blank]⟩]
  apart := by simp [Placed.Apart, Token.isDigits]

theorem blank_space : Text.Blank [' '] := by
  intro c hc
  rw [List.mem_singleton.1 hc]
  decide

/-- The number behind the field `c` and the sign for equality, with blanks between the three. -/
def comparison (n : PointedNumber) : Layout where
  lead := []
  blank := by simp [Text.Blank]
  placed := ⟨.field ['c'] (by decide) (by decide), [' '], blank_space⟩ ::
    ⟨.sign equalOperator (by decide), [' '], blank_space⟩ :: n.layout.placed
  apart := by simp [Placed.Apart, Token.isDigits, layout]

/-- The expression that compares the field `c` with the number. -/
def comparisonText (n : PointedNumber) : String :=
  String.ofList ('{' :: 'c' :: '}' :: ' ' :: '=' :: ' ' :: n.chars)

theorem ofList_chars_layout (n : PointedNumber) : String.ofList n.layout.chars = n.text := by
  simp [Layout.chars, layout, Placed.chars, Token.chars, pointOperator, text, chars]

theorem ofList_chars_comparison (n : PointedNumber) :
    String.ofList n.comparison.chars = n.comparisonText := by
  simp [Layout.chars, comparison, layout, Placed.chars, Token.chars, pointOperator, equalOperator,
    comparisonText, chars]

/-! ## Compiling -/

/-- Both runs of digits stand for integers of 64 bits. -/
def Fits (n : PointedNumber) : Prop :=
  digitsValue n.whole < Nat.pow 2 63 ∧ digitsValue n.fraction < Nat.pow 2 63

/-- The number is compiled to what the join gives. -/
theorem compile_text {n : PointedNumber} (h : n.Fits) :
    compile Grammar.standard n.text = (n.back.reduce n.front).map Tree.leaf := by
  have hunits : List.Forall₂ (fun t u => t.unit = .ok u) n.layout.tokens (chain n.front [n.back]) :=
    .cons (Token.unit_digits_eq_ok_iff.2 ⟨h.1, rfl⟩)
      (.cons rfl (.cons (Token.unit_digits_eq_ok_iff.2 ⟨h.2, rfl⟩) .nil))
  have hcount : (chain n.front [n.back]).countP Lexeme.isOperator ≤ maxOperators := by
    show 1 ≤ maxOperators
    decide
  have hheavier : ∀ j ∈ [n.back], ∀ k ∈ [n.back], j.op.kind = .binary → k.op.isTransform = true →
      j.op.weight < k.op.weight := by
    simp [back, pointOperator]
  have hreduced : reducedTree n.front [n.back] = (n.back.reduce n.front).map Tree.leaf := by
    show (n.back.reduce n.front >>= pure) >>= _ >>= _ = _
    cases n.back.reduce n.front with
    | error e => rfl
    | ok z =>
      show Except.ok (precedenceTree z ([] : List (Link PointRule))) = _
      rw [precedenceTree]
      rfl
  rw [← n.ofList_chars_layout, compile_eq_tree, Token.tree_eq_ofLexemes (List.cons_ne_nil _ _) hunits hcount]
  exact (ofLexemes_eq_reducedTree hheavier).trans hreduced

/-- On the right of a comparison the number is joined first. -/
theorem compile_comparisonText {n : PointedNumber} (h : n.Fits) :
    compile Grammar.standard n.comparisonText = (n.back.reduce n.front).map fun z =>
      .node equalOperator (.leaf (.field "c")) (.leaf z) := by
  obtain ⟨links, hlinks⟩ : ∃ links, links = [⟨equalOperator, n.front⟩, n.back] := ⟨_, rfl⟩
  have hunits : List.Forall₂ (fun t u => t.unit = .ok u) n.comparison.tokens (chain (.field "c") links) := by
    rw [hlinks]
    exact .cons rfl (.cons rfl (.cons (Token.unit_digits_eq_ok_iff.2 ⟨h.1, rfl⟩)
      (.cons rfl (.cons (Token.unit_digits_eq_ok_iff.2 ⟨h.2, rfl⟩) .nil))))
  have hcount : (chain (.field "c") links).countP Lexeme.isOperator ≤ maxOperators := by
    rw [hlinks]
    show 2 ≤ maxOperators
    decide
  have hheavier : ∀ j ∈ links, ∀ k ∈ links, j.op.kind = .binary → k.op.isTransform = true →
      j.op.weight < k.op.weight := by
    simp [hlinks, back, pointOperator, equalOperator, Operator.isTransform]
  have hreduced : reducedTree (.field "c") links = (n.back.reduce n.front).map fun z =>
      .node equalOperator (.leaf (.field "c")) (.leaf z) := by
    have hleading : leading links = [] := by
      rw [hlinks]
      rfl
    have hgroups : groups links = [(equalOperator, ⟨n.front, [n.back]⟩)] := by
      rw [hlinks]
      rfl
    rw [reducedTree, reduceGroups, hleading, hgroups]
    simp only [List.mapM_cons, List.mapM_nil, groupLink, Group.reduce, List.foldlM_cons, List.foldlM_nil]
    cases n.back.reduce n.front with
    | error e => rfl
    | ok z =>
      show Except.ok (precedenceTree (.field "c") [⟨equalOperator, z⟩]) = _
      simp [precedenceTree, LightestSplit.ofCons, Except.map]
  rw [← n.ofList_chars_comparison, compile_eq_tree,
    Token.tree_eq_ofLexemes (List.cons_ne_nil _ _) hunits hcount]
  exact (ofLexemes_eq_reducedTree hheavier).trans hreduced

theorem fits_of_compile {n : PointedNumber} {t : Tree PointRule}
    (h : compile Grammar.standard n.text = .ok t) : n.Fits := by
  rw [← n.ofList_chars_layout, compile_eq_tree] at h
  have hunit := Token.exists_unit_of_tree h
  obtain ⟨_, hfront⟩ := hunit (.digits n.whole n.isDigitRun_whole) (by simp [Layout.tokens, layout])
  obtain ⟨_, hback⟩ := hunit (.digits n.fraction n.isDigitRun_fraction) (by simp [Layout.tokens, layout])
  exact ⟨(Token.unit_digits_eq_ok_iff.1 hfront).1, (Token.unit_digits_eq_ok_iff.1 hback).1⟩

/-- What is compiled to a decimal is read as that decimal. -/
theorem ofText?_of_compile {n : PointedNumber} {text : String} {d : Decimal}
    (h : compile Grammar.standard n.text = .ok (.leaf (.literal text (.decimal d)))) :
    Decimal.ofText? n.chars = some d := by
  rw [compile_text (fits_of_compile h)] at h
  cases hreduce : n.back.reduce n.front with
  | error e =>
    rw [hreduce] at h
    cases h
  | ok z =>
    obtain ⟨d', hd, rfl⟩ := n.reduce_back_eq_ok_iff.1 hreduce
    rw [hreduce] at h
    cases h
    exact hd

/-- Where the number alone is compiled to a decimal, a field is compared with that decimal. -/
theorem compile_comparisonText_of_compile {n : PointedNumber} {text : String} {d : Decimal}
    (h : compile Grammar.standard n.text = .ok (.leaf (.literal text (.decimal d)))) :
    compile Grammar.standard n.comparisonText =
      .ok (.node equalOperator (.leaf (.field "c")) (.leaf (n.literal d))) := by
  rw [compile_comparisonText (fits_of_compile h), n.reduce_back_eq_ok_iff.2 ⟨d, ofText?_of_compile h, rfl⟩]
  rfl

end PointedNumber

end FilterLang
