import FilterLang.Text.Blank
import Mathlib.Data.List.DropRight

/-!
# Trimming

What taking the blanks off a text does to texts that are put together: blanks behind a text go, and a
character that is no blank keeps everything in front of it.
-/

namespace FilterLang.Text

/-- Whether the text is blank throughout; the empty text is. -/
def Blank (cs : List Char) : Prop :=
  ∀ c ∈ cs, isBlank c = true

instance (cs : List Char) : Decidable (Blank cs) :=
  List.decidableBAll (fun c => isBlank c = true) cs

theorem trimEnd_eq_rdropWhile (cs : List Char) : trimEnd cs = cs.rdropWhile isBlank := rfl

theorem trimEnd_prefix_self (cs : List Char) : trimEnd cs <+: cs := by
  rw [trimEnd_eq_rdropWhile]
  exact List.rdropWhile_prefix isBlank cs

/-- Trimming only takes characters away. -/
theorem trim_sublist (cs : List Char) : List.Sublist (trim cs) cs :=
  (trimEnd_prefix_self (cs.dropWhile isBlank)).sublist.trans (List.dropWhile_sublist isBlank)

theorem trimEnd_append_blank (cs : List Char) {gap : List Char} (h : Blank gap) :
    trimEnd (cs ++ gap) = trimEnd cs := by
  unfold trimEnd
  rw [List.reverse_append, List.dropWhile_append_of_pos]
  intro c hc
  exact h c (List.mem_reverse.1 hc)

/-- A character that is no blank stays at the end of the text. -/
theorem trimEnd_append_singleton (cs : List Char) {d : Char} (h : isBlank d = false) :
    trimEnd (cs ++ [d]) = cs ++ [d] := by
  rw [trimEnd_eq_rdropWhile, List.rdropWhile_concat_neg]
  simp [h]

/-- A character that is no blank stays at the beginning of the text. -/
theorem trim_cons {c : Char} (h : isBlank c = false) (cs : List Char) :
    trim (c :: cs) = c :: trimEnd cs := by
  have hdrop : (c :: cs).dropWhile isBlank = c :: cs := by simp [h]
  rw [trim, hdrop]
  unfold trimEnd
  rw [List.reverse_cons, List.dropWhile_append]
  split
  · rename_i hempty
    rw [List.isEmpty_iff.1 hempty]
    simp [h]
  · simp

theorem trim_cons_append_blank {c : Char} (h : isBlank c = false) (cs : List Char) {gap : List Char}
    (hgap : Blank gap) : trim (c :: cs ++ gap) = trim (c :: cs) := by
  rw [List.cons_append, trim_cons h, trim_cons h, trimEnd_append_blank cs hgap]

theorem trim_cons_append_singleton {c d : Char} (hc : isBlank c = false) (cs : List Char)
    (hd : isBlank d = false) : trim (c :: cs ++ [d]) = c :: cs ++ [d] := by
  rw [List.cons_append, trim_cons hc, trimEnd_append_singleton cs hd]

/-! ## What is trimmed off -/

theorem exists_eq_trimEnd_append (cs : List Char) : ∃ gap, Blank gap ∧ cs = trimEnd cs ++ gap := by
  refine ⟨(cs.reverse.takeWhile isBlank).reverse, ?_, ?_⟩
  · intro c hc
    exact List.mem_takeWhile_imp (List.mem_reverse.1 hc)
  · rw [trimEnd, ← List.reverse_append, List.takeWhile_append_dropWhile, List.reverse_reverse]

theorem trim_trim_cons {c : Char} (h : isBlank c = false) (cs : List Char) :
    trim (trim (c :: cs)) = trim (c :: cs) := by
  obtain ⟨gap, hgap, hcs⟩ := exists_eq_trimEnd_append cs
  have hwhole : trim (c :: trimEnd cs ++ gap) = trim (c :: trimEnd cs) :=
    trim_cons_append_blank h (trimEnd cs) hgap
  rw [List.cons_append, ← hcs] at hwhole
  rw [trim_cons h cs] at hwhole ⊢
  exact hwhole.symm

/-- A character behind the beginning of a text either belongs to what trimming leaves of the text, or the
beginning is trimmed to the same with it. -/
theorem trim_split {c d : Char} {cs front back : List Char} (hc : isBlank c = false)
    (heq : c :: cs = front ++ d :: back) :
    trim (front ++ [d]) = trim (c :: cs) ∨
      ∃ more, trim (c :: cs) = front ++ d :: more ∧ d :: more <+: d :: back := by
  obtain ⟨gap, hgap, hcs⟩ := exists_eq_trimEnd_append cs
  have hsplit : trim (c :: cs) ++ gap = front ++ d :: back := by
    rw [trim_cons hc, List.cons_append, ← hcs, heq]
  -- blanks behind what is left of the text change nothing
  have hblank : ∀ mid, Blank mid → trim (trim (c :: cs) ++ mid) = trim (c :: cs) := by
    intro mid hmid
    have htrim := trim_trim_cons hc cs
    rw [trim_cons hc] at htrim ⊢
    rw [trim_cons_append_blank hc _ hmid, htrim]
  rcases List.append_eq_append_iff.1 hsplit with ⟨mid, hfront, hrest⟩ | ⟨mid, hcore, hrest⟩
  · left
    rw [hfront, List.append_assoc]
    apply hblank
    intro b hb
    apply hgap
    rw [hrest, List.append_cons]
    exact List.mem_append_left back hb
  · cases mid with
    | nil =>
      left
      rw [List.append_nil] at hcore
      rw [← hcore]
      apply hblank
      intro b hb
      apply hgap
      rw [List.nil_append] at hrest
      rw [← hrest, List.mem_singleton.1 hb]
      exact List.mem_cons_self
    | cons d' more =>
      right
      obtain ⟨rfl, -⟩ := List.cons.inj hrest
      exact ⟨more, hcore, gap, hrest.symm⟩

/-- A text that trimming leaves as it is begins with no blank. -/
theorem isBlank_head_of_trim_eq_self {c : Char} {cs : List Char} (h : trim (c :: cs) = c :: cs) :
    isBlank c = false := by
  rw [Bool.eq_false_iff]
  intro hc
  have hdrop : trim (c :: cs) = trim cs := by
    rw [trim, trim, List.dropWhile_cons_of_pos hc]
  have hlen := (trim_sublist cs).length_le
  rw [← hdrop, h, List.length_cons] at hlen
  omega

end FilterLang.Text
