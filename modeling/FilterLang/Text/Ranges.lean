/-!
# Sets of characters given by ranges

A property of characters that no formula gives is stored as a table of closed ranges of code points.
A table is in order when its ranges ascend and no two of them touch, so that each set has one table.
-/

namespace FilterLang.Text

/-- Whether one of the closed ranges holds the character. -/
def inRanges (ranges : List (Nat × Nat)) (c : Char) : Bool :=
  ranges.any fun r => r.1 ≤ c.toNat && c.toNat ≤ r.2

/-- Whether the ranges ascend and leave a gap between each two of them. -/
def inOrder (ranges : List (Nat × Nat)) : Bool :=
  ranges.all (fun r => r.1 ≤ r.2) && (ranges.zip ranges.tail).all fun (a, b) => a.2 + 1 < b.1

/-- Whether no character is in both of two tables. -/
def apart (ranges others : List (Nat × Nat)) : Bool :=
  ranges.all fun a => others.all fun b => a.2 < b.1 || b.2 < a.1

theorem inRanges_iff {ranges : List (Nat × Nat)} {c : Char} :
    inRanges ranges c = true ↔ ∃ r ∈ ranges, r.1 ≤ c.toNat ∧ c.toNat ≤ r.2 := by
  simp [inRanges]

theorem inRanges_eq_false_of_apart {ranges others : List (Nat × Nat)} {c : Char}
    (h : apart ranges others = true) (hc : inRanges ranges c = true) :
    inRanges others c = false := by
  obtain ⟨a, ha, hlow, hhigh⟩ := inRanges_iff.1 hc
  rw [Bool.eq_false_iff]
  intro hin
  obtain ⟨b, hb, hlow', hhigh'⟩ := inRanges_iff.1 hin
  have hab := List.all_eq_true.1 (List.all_eq_true.1 h a ha) b hb
  simp only [Bool.or_eq_true, decide_eq_true_eq] at hab
  omega

end FilterLang.Text
