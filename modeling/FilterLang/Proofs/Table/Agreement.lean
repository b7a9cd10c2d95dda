import FilterLang.Proofs.Number.Rational
import FilterLang.Table.Basic

/-!
# Equality in filters

What a filter sees of a value is its content: a truth value, a number or a text, and nothing of a missing
value.  An integer and a decimal have the same content if they are the same number, whatever the scale is.
Two values are equal in a filter exactly if they have the same content (`Value.agrees_iff`), so this equality
is symmetric and transitive, and a value equals itself unless it is missing.

A condition looks at nothing else either.  Constants may therefore be exchanged for others that are equal to
them, and the same rows are selected (`Value.agrees_congruence`).
-/

namespace FilterLang

/-! ## Contents -/

/-- What a filter sees of a value. -/
inductive Content where
  | truth (value : Bool)
  | number (value : ℚ)
  | text (value : String)

namespace Value

variable {a b c : Value}

/-- The content of a value that is not missing. -/
def content? : Value → Option Content
  | null => none
  | boolean value => some (.truth value)
  | integer value => some (.number value.toInt)
  | decimal value => some (.number value.number)
  | string value => some (.text value)

/-- Truth values have a content of their own. -/
theorem content?_eq_truth_iff {value : Bool} :
    a.content? = some (.truth value) ↔ a = boolean value := by
  cases a <;> simp [content?]

theorem agrees_integer_decimal_iff (i : Int64) (d : Decimal) :
    (integer i).agrees (decimal d) = true ↔ (i.toInt : ℚ) = d.number := by
  rw [agrees, Decimal.sameNumber_iff, Decimal.number_ofInt64]

/-- The equality of filters is that of contents, where there is any. -/
theorem agrees_iff : a.agrees b = true ↔ a.content? ≠ none ∧ a.content? = b.content? := by
  cases a <;> cases b <;>
    simp [agrees, same, content?, Decimal.sameNumber_iff, Decimal.number_ofInt64, Int64.toInt_inj]

theorem agrees_trans (hab : a.agrees b = true) (hbc : b.agrees c = true) : a.agrees c = true := by
  obtain ⟨hsome, hab'⟩ := agrees_iff.1 hab
  obtain ⟨-, hbc'⟩ := agrees_iff.1 hbc
  exact agrees_iff.2 ⟨hsome, hab'.trans hbc'⟩

/-- Values of the same content agree with the same values. -/
theorem agrees_congr {a' b' : Value} (ha : a.content? = a'.content?) (hb : b.content? = b'.content?) :
    a.agrees b = a'.agrees b' := by
  rw [Bool.eq_iff_iff, agrees_iff, agrees_iff, ha, hb]

/-- Two values of the same kind, neither of them missing. -/
inductive SameKind : Value → Value → Prop
  | boolean (a b : Bool) : SameKind (boolean a) (boolean b)
  | integer (a b : Int64) : SameKind (integer a) (integer b)
  | decimal (a b : Decimal) : SameKind (decimal a) (decimal b)
  | string (a b : String) : SameKind (string a) (string b)

/-- Within a kind the equality of filters is the usual one. -/
theorem agrees_eq_same (h : a.SameKind b) : a.agrees b = a.same b := by
  cases h with
  | boolean => rfl
  | integer => rfl
  | decimal => rfl
  | string => rfl

end Value

/-! ## Exchanging constants -/

/-- The same term, or a constant in place of one that is equal to it in filters. -/
inductive Term.Alike : Term → Term → Prop
  | kept (term : Term) : Alike term term
  | replaced {v w : Value} (h : v.agrees w = true) : Alike (constant v) (constant w)

/-- The same condition but for constants in place of others that are equal to them in filters. -/
inductive Condition.Alike : Condition → Condition → Prop
  | equal {l l' r r' : Term} (hl : l.Alike l') (hr : r.Alike r') : Alike (equal l r) (equal l' r')
  | isTrue {term term' : Term} (h : term.Alike term') : Alike (isTrue term) (isTrue term')
  | and {l l' r r' : Condition} (hl : Alike l l') (hr : Alike r r') : Alike (and l r) (and l' r')
  | or {l l' r r' : Condition} (hl : Alike l l') (hr : Alike r r') : Alike (or l r) (or l' r')

/-- On every row alike terms have values of the same content. -/
theorem Term.Alike.content?_value {term term' : Term} (h : term.Alike term') (row : List Value) :
    (term.value row).content? = (term'.value row).content? := by
  rcases h with _ | hagrees
  · rfl
  · exact (Value.agrees_iff.1 hagrees).2

/-- Alike conditions hold on the same rows. -/
theorem Condition.Alike.holds_eq {c c' : Condition} (h : c.Alike c') (row : List Value) :
    c.holds row = c'.holds row := by
  induction h with
  | equal hl hr =>
    rw [holds, holds]
    exact Value.agrees_congr (hl.content?_value row) (hr.content?_value row)
  | isTrue h =>
    -- a term is tested against a value, but only its content matters to the test
    rw [holds, holds, Bool.eq_iff_iff, beq_iff_eq, beq_iff_eq, ← Value.content?_eq_truth_iff,
      ← Value.content?_eq_truth_iff, h.content?_value row]
  | and hl hr ihl ihr => rw [holds, holds, ihl, ihr]
  | or hl hr ihl ihr => rw [holds, holds, ihl, ihr]

theorem Table.select_eq_of_alike (t : Table) {c c' : Condition} (h : c.Alike c') :
    t.select c = t.select c' := by
  unfold select
  exact List.filter_congr fun row _ => h.holds_eq row

/-- The equality of filters is symmetric and transitive, and a value equals itself unless it is missing.
Within a kind it is the usual equality, and an integer equals a decimal if they are the same number.
Conditions that differ in equal constants hold on the same rows, and so select the same rows of every table. -/
theorem Value.agrees_congruence :
    (∀ a b : Value, a.agrees b = b.agrees a) ∧
    (∀ a b c : Value, a.agrees b = true → b.agrees c = true → a.agrees c = true) ∧
    (∀ a : Value, a.agrees a = true ↔ a ≠ null) ∧
    (∀ a b : Value, a.SameKind b → a.agrees b = a.same b) ∧
    (∀ (i : Int64) (d : Decimal), (integer i).agrees (decimal d) = true ↔ (i.toInt : ℚ) = d.number) ∧
    ∀ c c' : Condition, c.Alike c' →
      (∀ row, c.holds row = c'.holds row) ∧ ∀ t : Table, t.select c = t.select c' := by
  refine ⟨agrees_comm, ?_, ?_, ?_, agrees_integer_decimal_iff, ?_⟩
  · intro a b c hab hbc
    exact agrees_trans hab hbc
  · intro a
    exact agrees_self
  · intro a b hkind
    exact agrees_eq_same hkind
  · intro c c' halike
    exact ⟨halike.holds_eq, fun t => t.select_eq_of_alike halike⟩

/-- `3`, `3.0` and `3.00` select the same rows. -/
theorem Value.agrees_congruence_three :
    let one : Decimal := ⟨false, 30, 1, by decide, by decide⟩
    let two : Decimal := ⟨false, 300, 2, by decide, by decide⟩
    (integer 3).agrees (decimal one) = true ∧ (decimal one).agrees (decimal two) = true ∧
      (integer 3).agrees (decimal two) = true ∧ ∀ (t : Table) (col : Column),
        t.select (.equal (.column col) (.constant (integer 3))) =
          t.select (.equal (.column col) (.constant (decimal two))) := by
  intro one two
  obtain ⟨-, htrans, -, -, -, hselect⟩ := agrees_congruence
  have hone : (integer 3).agrees (decimal one) = true := by decide
  have htwo : (decimal one).agrees (decimal two) = true := by decide
  have hthree : (integer 3).agrees (decimal two) = true := htrans _ _ _ hone htwo
  refine ⟨hone, htwo, hthree, ?_⟩
  intro t col
  exact (hselect _ _ (.equal (.kept _) (.replaced hthree))).2 t

end FilterLang
