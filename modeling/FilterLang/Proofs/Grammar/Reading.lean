import FilterLang.Grammar.Basic
import FilterLang.Proofs.Text.Trimming

/-!
# What patterns read

Which texts a pattern reads, as far as it matters for finding where a unit ends: what they begin with,
whether blanks around them count, and what stands at their two ends.  A pattern that cannot begin with
the first character of a text has no say in it (`Grammar.read?_eq_of_mayBegin`).
-/

namespace FilterLang

open Text

variable {ρ : Type}

theorem ofList_eq_iff {cs : List Char} {s : String} : String.ofList cs = s ↔ cs = s.toList := by
  constructor
  · rintro rfl
    rw [String.toList_ofList]
  · rintro rfl
    rw [String.ofList_toList]

namespace Pattern

/-! ## The first character -/

/-- Whether the character can stand at the beginning of what the pattern reads, blanks apart. -/
def mayBegin (p : Pattern ρ) (c : Char) : Bool :=
  match p with
  | integer => c.isDigit
  | boolean => c == 't' || c == 'f'
  | string quote => c == quote
  | field => c == '{'
  | operator op => op.token.toList.head? == some c

theorem between?_cons_eq_none {opening closing c : Char} (h : c ≠ opening) (cs : List Char) :
    between? opening closing (c :: cs) = none := by
  simp [between?, h]

theorem read?_eq_none_of_mayBegin {p : Pattern ρ} {c : Char} (hc : isBlank c = false)
    (h : p.mayBegin c = false) (cs : List Char) : p.read? (c :: cs) = none := by
  cases p with
  | integer =>
    have hrun : isDigitRun (c :: cs) = false := by
      have hdigit : c.isDigit = false := h
      simp [isDigitRun, hdigit]
    simp [read?, readInteger?, hrun]
  | boolean =>
    simp only [mayBegin, Bool.or_eq_false_iff, beq_eq_false_iff_ne] at h
    have htrue : String.ofList (c :: cs) ≠ "true" := by
      intro heq
      exact h.1 (List.cons.inj (ofList_eq_iff.1 heq)).1
    have hfalse : String.ofList (c :: cs) ≠ "false" := by
      intro heq
      exact h.2 (List.cons.inj (ofList_eq_iff.1 heq)).1
    simp only [read?, readBoolean?, if_neg htrue, if_neg hfalse, Option.map_none]
  | string quote =>
    have hne : c ≠ quote := by simpa [mayBegin] using h
    simp [read?, readString?, trim_cons hc, between?_cons_eq_none hne]
  | field =>
    have hne : c ≠ '{' := by simpa [mayBegin] using h
    simp [read?, readField?, trim_cons hc, between?_cons_eq_none hne]
  | operator op =>
    have hne : String.ofList (trim (c :: cs)) ≠ op.token := by
      intro heq
      rw [ofList_eq_iff, trim_cons hc] at heq
      simp [mayBegin, ← heq] at h
    simp [read?, hne]

/-! ## Blanks -/

/-- Whether blanks around a text make no difference to the pattern. -/
def trims : Pattern ρ → Bool
  | integer => false
  | boolean => false
  | string _ => true
  | field => true
  | operator _ => true

theorem read?_eq_of_trim_eq {p : Pattern ρ} (hp : p.trims = true) {cs cs' : List Char}
    (h : trim cs = trim cs') : p.read? cs = p.read? cs' := by
  cases p with
  | integer => cases hp
  | boolean => cases hp
  | string quote => simp only [read?, readString?, h]
  | field => simp only [read?, readField?, h]
  | operator op => simp only [read?, h]

/-! ## What is read -/

theorem isSome_read?_integer (cs : List Char) :
    (read? (integer : Pattern ρ) cs).isSome = isDigitRun cs := by
  cases h : isDigitRun cs <;> simp [read?, readInteger?, h]

theorem isSome_read?_boolean (cs : List Char) :
    (read? (boolean : Pattern ρ) cs).isSome = true ↔ cs = "true".toList ∨ cs = "false".toList := by
  simp only [read?, readBoolean?, ofList_eq_iff, Option.isSome_map]
  split
  · rename_i htrue
    simp only [Option.isSome_some, true_iff]
    exact .inl htrue
  · rename_i htrue
    split
    · rename_i hfalse
      simp only [Option.isSome_some, true_iff]
      exact .inr hfalse
    · rename_i hfalse
      simp only [Option.isSome_none, Bool.false_eq_true, false_iff, not_or]
      exact ⟨htrue, hfalse⟩

theorem isSome_read?_operator (op : Operator ρ) (cs : List Char) :
    (read? (operator op) cs).isSome = true ↔ trim cs = op.token.toList := by
  simp only [read?, ofList_eq_iff]
  split <;> simp [*]

/-- A text is read as an error only if it is a run of digits that fits no 64-bit integer. -/
theorem read?_eq_error {p : Pattern ρ} {cs : List Char} {e : ExprError}
    (h : p.read? cs = some (.error e)) :
    isDigitRun cs = true ∧ Nat.pow 2 63 ≤ digitsValue cs ∧ e = .integerOverflow (String.ofList cs) := by
  cases p with
  | integer =>
    simp only [read?, readInteger?] at h
    split at h
    · rename_i hrun
      rw [Option.map_some, Option.some.injEq] at h
      split at h
      · cases h
      · rename_i hover
        cases h
        exact ⟨hrun, Nat.not_lt.1 hover, rfl⟩
    · cases h
  | boolean =>
    obtain ⟨x, -, hx⟩ := Option.map_eq_some_iff.1 h
    cases hx
  | string quote =>
    obtain ⟨x, -, hx⟩ := Option.map_eq_some_iff.1 h
    cases hx
  | field =>
    obtain ⟨x, -, hx⟩ := Option.map_eq_some_iff.1 h
    cases hx
  | operator op =>
    simp only [read?] at h
    split at h
    · cases h
    · cases h

/-- A text that consists of an opening character, characters that do not close, and the closing
character, with blanks around it. -/
def Bracketed (opening closing : Char) (cs : List Char) : Prop :=
  ∃ inner, trim cs = opening :: (inner ++ [closing]) ∧ closing ∉ inner

theorem brace_not_mem_of_plain {name : List Char} (plain : ∀ c ∈ name, isNameChar c = true) :
    '}' ∉ name := by
  intro hmem
  have hbrace : isNameChar '}' = false := by decide
  rw [plain '}' hmem] at hbrace
  cases hbrace

theorem isBlank_eq_false_of_isNameChar {c : Char} (h : isNameChar c = true) : isBlank c = false := by
  rw [isNameChar, Bool.or_eq_true, beq_iff_eq] at h
  rcases h with h | rfl
  · rw [Bool.eq_false_iff]
    intro hblank
    rw [isAlphanumeric_eq_false_of_isBlank hblank] at h
    cases h
  · decide

theorem isSome_read?_field (cs : List Char) :
    (read? (field : Pattern ρ) cs).isSome = true ↔
      ∃ name, trim cs = '{' :: (name ++ ['}']) ∧ name ≠ [] ∧ ∀ c ∈ name, isNameChar c = true := by
  simp only [read?, readField?, Option.isSome_map]
  cases hname : between? '{' '}' (trim cs) with
  | none =>
    simp only [Option.bind_eq_bind, Option.bind_none, Option.isSome_none, Bool.false_eq_true, false_iff]
    rintro ⟨name, htrim, -⟩
    rw [between?_eq_some_iff.2 htrim] at hname
    cases hname
  | some name =>
    simp only [Option.bind_eq_bind, Option.bind_some]
    constructor
    · intro h
      split at h
      · rename_i hall
        exact ⟨name, between?_eq_some_iff.1 hname, hall.1, List.all_eq_true.1 hall.2⟩
      · cases h
    · rintro ⟨name', htrim, hne, hall⟩
      rw [between?_eq_some_iff.2 htrim, Option.some.injEq] at hname
      subst hname
      rw [if_pos ⟨hne, List.all_eq_true.2 hall⟩]
      rfl

theorem isSome_read?_string (quote : Char) (cs : List Char) :
    (read? (string quote : Pattern ρ) cs).isSome = true ↔ Bracketed quote quote cs := by
  simp only [read?, readString?, Option.isSome_map, Bracketed]
  cases hinner : between? quote quote (trim cs) with
  | none =>
    simp only [Option.bind_eq_bind, Option.bind_none, Option.isSome_none, Bool.false_eq_true, false_iff]
    rintro ⟨inner, htrim, -⟩
    rw [between?_eq_some_iff.2 htrim] at hinner
    cases hinner
  | some inner =>
    simp only [Option.bind_eq_bind, Option.bind_some]
    constructor
    · intro h
      split at h
      · cases h
      · rename_i hmem
        exact ⟨inner, between?_eq_some_iff.1 hinner, hmem⟩
    · rintro ⟨inner', htrim, hmem⟩
      rw [between?_eq_some_iff.2 htrim, Option.some.injEq] at hinner
      subst hinner
      rw [if_neg hmem]
      rfl

theorem bracketed_of_read?_field {cs : List Char} (h : (read? (field : Pattern ρ) cs).isSome = true) :
    Bracketed '{' '}' cs := by
  obtain ⟨name, htrim, -, hname⟩ := (isSome_read?_field cs).1 h
  exact ⟨name, htrim, brace_not_mem_of_plain hname⟩

/-! ## Brackets -/

section Brackets

variable {opening closing : Char} {inner : List Char}

/-- What ends in front of the closing character consists of the opening one and a part of what stands
between them. -/
theorem front_of_brackets {front back : List Char} {c : Char}
    (heq : opening :: (inner ++ [closing]) = front ++ c :: back) (hfront : front ≠ []) :
    ∃ held, front = opening :: held ∧ held <+: inner := by
  cases front with
  | nil => exact absurd rfl hfront
  | cons o held =>
    obtain ⟨rfl, hrest⟩ := List.cons.inj heq
    rcases List.prefix_concat_iff.1 ⟨c :: back, hrest.symm⟩ with hwhole | hheld
    · -- the front would be the whole text, and leave no room for the character
      rw [hwhole] at hrest
      simp at hrest
    · exact ⟨held, rfl, hheld⟩

/-- Nothing that ends in front of the closing character is bracketed. -/
theorem not_bracketed_front (hopening : isBlank opening = false) (hinner : closing ∉ inner)
    {front back : List Char} {c : Char} (heq : opening :: (inner ++ [closing]) = front ++ c :: back)
    (hfront : front ≠ []) : ¬Bracketed opening closing front := by
  rintro ⟨inner', htrim, -⟩
  obtain ⟨held, rfl, hheld⟩ := front_of_brackets heq hfront
  rw [trim_cons hopening, List.cons.injEq] at htrim
  have hmem : closing ∈ trimEnd held := by
    rw [htrim.2]
    simp
  exact hinner (hheld.subset ((trimEnd_prefix_self held).subset hmem))

/-- Behind the closing character only blanks can be added. -/
theorem not_bracketed_append (hopening : isBlank opening = false) (gap : List Char) {d : Char}
    (hd : isBlank d = false) :
    ¬Bracketed opening closing (opening :: (inner ++ [closing]) ++ gap ++ [d]) := by
  rintro ⟨inner', heq, hinner'⟩
  have hwhole := trim_cons_append_singleton hopening (inner ++ [closing] ++ gap) hd
  rw [List.cons_append, hwhole, List.cons_append, List.cons.injEq] at heq
  have hsplit := List.append_inj' heq.2 rfl
  apply hinner'
  rw [← hsplit.1]
  simp

end Brackets

end Pattern

namespace Grammar

theorem read?_eq_error {g : Grammar ρ} {cs : List Char} {e : ExprError}
    (h : g.read? cs = some (.error e)) :
    isDigitRun cs = true ∧ Nat.pow 2 63 ≤ digitsValue cs ∧ e = .integerOverflow (String.ofList cs) := by
  obtain ⟨p, -, hp⟩ := List.exists_of_findSome?_eq_some h
  exact Pattern.read?_eq_error hp

/-! ## The pattern that decides -/

/-- If only one pattern of the grammar can begin with a character, it decides about all texts that
begin so. -/
theorem read?_eq_of_mayBegin {g : Grammar ρ} {p : Pattern ρ} (hp : p ∈ g.patterns) {c : Char}
    (hc : isBlank c = false) (hothers : ∀ q ∈ g.patterns, q = p ∨ q.mayBegin c = false)
    (cs : List Char) : g.read? (c :: cs) = p.read? (c :: cs) := by
  unfold read?
  generalize g.patterns = patterns at hp hothers
  induction patterns with
  | nil => cases hp
  | cons q rest ih =>
    rw [List.findSome?_cons]
    rcases hothers q List.mem_cons_self with rfl | hq
    · -- the first pattern is the one; if it reads nothing, none of the others does
      cases hread : q.read? (c :: cs) with
      | some r => rfl
      | none =>
        rw [List.findSome?_eq_none_iff]
        intro q' hq'
        rcases hothers q' (List.mem_cons_of_mem _ hq') with rfl | hbegin
        · exact hread
        · exact Pattern.read?_eq_none_of_mayBegin hc hbegin cs
    · rw [Pattern.read?_eq_none_of_mayBegin hc hq cs]
      rcases List.mem_cons.1 hp with rfl | hp
      · rw [List.findSome?_eq_none_iff.2, Pattern.read?_eq_none_of_mayBegin hc hq cs]
        intro q' hq'
        rcases hothers q' (List.mem_cons_of_mem _ hq') with rfl | hbegin
        · exact Pattern.read?_eq_none_of_mayBegin hc hq cs
        · exact Pattern.read?_eq_none_of_mayBegin hc hbegin cs
      · exact ih hp fun q' hq' => hothers q' (List.mem_cons_of_mem _ hq')

end Grammar

end FilterLang
