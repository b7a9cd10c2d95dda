import FilterLang.Proofs.Expr.Shape
import Mathlib.Data.List.Induction

/-!
# Reading the canonical form back

A tree cannot always be told from its canonical form: the text of an operand may hold brackets, and one
token may begin with another.  Where it shows of every operand and of every operator where it ends, it
shows of the trees over them too (`Tree.selfDelimiting_chars`).

Which operands and operators a tree is built over depends on the units that are merged and on the rules
that reduce them (`Tree.over_ofLexemes`).
-/

namespace FilterLang

/-! ## Words that show where they end -/

/-- Of a text that begins with one of these words, it is known with which, and what follows it. -/
def SelfDelimiting {α : Type} (P : α → Prop) (word : α → List Char) : Prop :=
  ∀ ⦃x y : α⦄, P x → P y → ∀ ⦃r s : List Char⦄, word x ++ r = word y ++ s → x = y ∧ r = s

theorem SelfDelimiting.eq_of_word_eq {α : Type} {P : α → Prop} {word : α → List Char}
    (h : SelfDelimiting P word) {x y : α} (hx : P x) (hy : P y) (heq : word x = word y) : x = y := by
  have happend : word x ++ [] = word y ++ [] := by rw [heq]
  exact (h hx hy happend).1

/-- A text ends with the first character of a kind. -/
theorem selfDelimiting_concat (c : Char) : SelfDelimiting (fun cs => c ∉ cs) (fun cs => cs ++ [c]) := by
  intro cs cs' hcs hcs' r s heq
  simp only [List.append_assoc, List.singleton_append] at heq
  -- if one text were longer, it would hold the character in front of its end
  rcases List.append_eq_append_iff.1 heq with ⟨more, rfl, hmore⟩ | ⟨more, rfl, hmore⟩
  · cases more with
    | nil => exact ⟨(List.append_nil cs).symm, (List.cons.inj hmore).2⟩
    | cons d more =>
      obtain ⟨rfl, -⟩ := List.cons.inj hmore
      simp at hcs'
  · cases more with
    | nil => exact ⟨List.append_nil cs', (List.cons.inj hmore).2.symm⟩
    | cons d more =>
      obtain ⟨rfl, -⟩ := List.cons.inj hmore
      simp at hcs

variable {ρ : Type} {P : Operand → Prop} {Q : Operator ρ → Prop}

/-! ## What a tree is built over -/

/-- All operands of the tree satisfy `P`, and all its operators `Q`. -/
def Tree.Over (P : Operand → Prop) (Q : Operator ρ → Prop) : Tree ρ → Prop
  | hole => True
  | leaf x => P x
  | node op left right => Q op ∧ left.Over P Q ∧ right.Over P Q

/-- The unit is an operand that satisfies `P` or an operator that satisfies `Q`. -/
def Lexeme.Over (P : Operand → Prop) (Q : Operator ρ → Prop) : Lexeme ρ → Prop
  | operand x => P x
  | operator op => Q op

namespace Tree

/-! ## Trees -/

/-- A tree begins with a bracket, or with the first letter of the word for a hole. -/
theorem exists_chars_cons (t : Tree ρ) : ∃ c cs, t.chars = c :: cs ∧ (c = '[' ∨ c = 'n') := by
  cases t with
  | hole => exact ⟨'n', _, rfl, .inr rfl⟩
  | leaf _ => exact ⟨'[', _, rfl, .inl rfl⟩
  | node _ _ _ => exact ⟨'[', _, rfl, .inl rfl⟩

/-- Behind the bracket of a leaf stands a character with which no tree begins. -/
def BeginsLeaf (x : Operand) : Prop :=
  ∃ c cs, x.text.toList = c :: cs ∧ c ≠ '[' ∧ c ≠ 'n'

theorem leaf_chars_ne {x : Operand} (hx : BeginsLeaf x) {op : Operator ρ} {left right : Tree ρ}
    {r s : List Char} : (leaf x : Tree ρ).chars ++ r ≠ (node op left right).chars ++ s := by
  intro heq
  obtain ⟨c, cs, htext, hbracket, hn⟩ := hx
  obtain ⟨d, ds, hleft, hd⟩ := left.exists_chars_cons
  simp only [chars, htext, hleft, List.cons_append, List.cons.injEq] at heq
  rcases hd with rfl | rfl
  · exact hbracket heq.2.1
  · exact hn heq.2.1

/-- Where the operands and the tokens show where they end, so do the trees over them.  The induction is
on the first tree, for any text behind it: on its left side it meets a tree with the token behind it, and
on its right side one with a bracket behind it. -/
theorem selfDelimiting_chars (hoperand : SelfDelimiting P fun x => x.text.toList ++ [']'])
    (hoperator : SelfDelimiting Q fun op => op.token.toList) (hbegins : ∀ x, P x → BeginsLeaf x) :
    SelfDelimiting (Over P Q) Tree.chars := by
  intro t u ht hu r s heq
  induction t generalizing u r s with
  | hole =>
    cases u with
    | hole => exact ⟨rfl, List.append_cancel_left heq⟩
    | leaf _ => cases heq
    | node _ _ _ => cases heq
  | leaf x =>
    cases u with
    | hole => cases heq
    | leaf y =>
      obtain ⟨rfl, hrest⟩ := hoperand ht hu (List.cons.inj heq).2
      exact ⟨rfl, hrest⟩
    | node op left right => exact absurd heq (leaf_chars_ne (hbegins x ht))
  | node op left right ihleft ihright =>
    cases u with
    | hole => cases heq
    | leaf y => exact absurd heq.symm (leaf_chars_ne (hbegins y hu))
    | node op' left' right' =>
      obtain ⟨hop, hleft, hright⟩ := ht
      obtain ⟨hop', hleft', hright'⟩ := hu
      simp only [Tree.chars, List.cons_append, List.append_assoc, List.cons.injEq, true_and,
        List.nil_append] at heq
      obtain ⟨rfl, hafterLeft⟩ := ihleft hleft hleft' heq
      obtain ⟨rfl, hafterToken⟩ := hoperator hop hop' hafterLeft
      obtain ⟨rfl, hafterRight⟩ := ihright hright hright' hafterToken
      exact ⟨rfl, (List.cons.inj hafterRight).2⟩

/-! ## Merging -/

variable [Reducer ρ]

/-- From trees over `P` and `Q` the rules make operands that satisfy `P`. -/
def ReducesOver (P : Operand → Prop) (Q : Operator ρ → Prop) : Prop :=
  ∀ (rule : ρ) (left right : Tree ρ) (x : Operand), left.Over P Q → right.Over P Q →
    Reducer.reduce rule left right = some x → P x

theorem over_settle (hrules : ReducesOver P Q) {op : Operator ρ} {left right t : Tree ρ} (hop : Q op)
    (hleft : left.Over P Q) (hright : right.Over P Q) (h : settle op left right = .ok t) :
    t.Over P Q := by
  rcases settle_eq_ok h with ⟨rfl, -⟩ | ⟨x, rfl, rule, hrule⟩
  · exact ⟨hop, hleft, hright⟩
  · exact hrules rule left right x hleft hright hrule

theorem over_addOperand (hrules : ReducesOver P Q) {x : Operand} (hx : P x) {t u : Tree ρ}
    (ht : t.Over P Q) (h : addOperand x t = .ok u) : u.Over P Q := by
  induction t generalizing u with
  | hole =>
    cases h
    exact hx
  | leaf _ => cases h
  | node op left right _ ih =>
    obtain ⟨hop, hleft, hright⟩ := ht
    rcases addOperand_node_eq_ok h with ⟨-, hsettle⟩ | ⟨-, r, hadd, hsettle⟩
    · have hleaf : (leaf x : Tree ρ).Over P Q := hx
      exact over_settle hrules hop hleaf hright hsettle
    · exact over_settle hrules hop hleft (ih hright hadd) hsettle

theorem over_addOperator {op : Operator ρ} (hop : Q op) {t u : Tree ρ} (ht : t.Over P Q)
    (h : addOperator op hole hole t = .ok u) : u.Over P Q := by
  induction t generalizing u with
  | hole =>
    cases h
    exact ⟨hop, trivial, trivial⟩
  | leaf x =>
    rw [addOperator_leaf] at h
    cases h
    exact ⟨hop, ht, trivial⟩
  | node top l r _ ih =>
    obtain ⟨htop, hl, hr⟩ := ht
    rcases addOperator_node_eq_ok h with ⟨-, r', hadd, rfl⟩ | ⟨-, rfl⟩
    · exact ⟨htop, hl, ih hr hadd⟩
    · exact ⟨hop, ⟨htop, hl, hr⟩, trivial⟩

theorem over_add (hrules : ReducesOver P Q) {t u : Tree ρ} {v : Lexeme ρ} (hv : v.Over P Q)
    (ht : t.Over P Q) (h : t.add v = .ok u) : u.Over P Q := by
  cases v with
  | operand x => exact over_addOperand hrules hv ht h
  | operator op => exact over_addOperator hv ht h

/-- A tree is built over what its units are. -/
theorem over_ofLexemes (hrules : ReducesOver P Q) {us : List (Lexeme ρ)} (hus : ∀ v ∈ us, v.Over P Q)
    {t : Tree ρ} (h : ofLexemes us = .ok t) : t.Over P Q := by
  induction us using List.reverseRecOn generalizing t with
  | nil =>
    cases h
    trivial
  | append_singleton us v ih =>
    obtain ⟨front, hfront, hlast⟩ := ofLexemes_append_singleton_eq_ok_iff.1 h
    have hv : v.Over P Q := hus v (List.mem_append_right us List.mem_cons_self)
    exact over_add hrules hv (ih (fun w hw => hus w (List.mem_append_left _ hw)) hfront) hlast

end Tree

end FilterLang
