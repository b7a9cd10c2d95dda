import FilterLang.Grammar.Pieces
import FilterLang.Proofs.Text.Trimming

/-!
# Where pieces end

How cutting a text into pieces goes on from the characters held: it skips blanks, it holds one more
character, or it ends the piece.  A text in which no piece can end is held as a whole
(`pieces_append_of_unbroken`), and what stands behind a piece does not depend on it
(`pieces_eq_cons`).
-/

namespace FilterLang

open Text

variable {accepts : List Char → Bool}

/-- A piece ends in front of the character: it can be read, but not with the character added. -/
def Stops (accepts : List Char → Bool) (held : List Char) (c : Char) : Prop :=
  accepts held = true ∧ accepts (held ++ [c]) = false

/-- No piece that begins with the text ends inside it. -/
def Unbroken (accepts : List Char → Bool) (cs : List Char) : Prop :=
  ∀ front c back, cs = front ++ c :: back → front ≠ [] → ¬Stops accepts front c

/-! ## One character -/

theorem pieces_nil_cons (c : Char) (rest : List Char) :
    pieces accepts [] (c :: rest) = pieces accepts (opening c) rest := rfl

theorem pieces_blank {c : Char} (h : isBlank c = true) (rest : List Char) :
    pieces accepts [] (c :: rest) = pieces accepts [] rest := by
  rw [pieces_nil_cons, opening, if_pos h]

theorem pieces_open {c : Char} (h : isBlank c = false) (rest : List Char) :
    pieces accepts [] (c :: rest) = pieces accepts [c] rest := by
  simp [pieces_nil_cons, opening, h]

theorem pieces_hold {held : List Char} {c : Char} (hheld : held ≠ []) (h : ¬Stops accepts held c)
    (rest : List Char) : pieces accepts held (c :: rest) = pieces accepts (held ++ [c]) rest := by
  have hgo : ¬(accepts held && !accepts (held ++ [c])) = true := by
    rw [Bool.and_eq_true, Bool.not_eq_true']
    exact h
  rw [pieces, if_neg (by simpa using hheld), if_neg hgo]

theorem pieces_stop {held : List Char} {c : Char} (hheld : held ≠ []) (h : Stops accepts held c)
    (rest : List Char) :
    pieces accepts held (c :: rest) = held :: pieces accepts [] (c :: rest) := by
  have hstop : (accepts held && !accepts (held ++ [c])) = true := by
    rw [Bool.and_eq_true, Bool.not_eq_true']
    exact h
  rw [pieces, if_neg (by simpa using hheld), if_pos hstop, pieces_nil_cons]

/-! ## Blanks and whole pieces -/

/-- Blanks in front of a piece belong to none. -/
theorem pieces_skip {gap : List Char} (h : Blank gap) (rest : List Char) :
    pieces accepts [] (gap ++ rest) = pieces accepts [] rest := by
  induction gap with
  | nil => rfl
  | cons c gap ih =>
    obtain ⟨hc, hgap⟩ := List.forall_mem_cons.1 h
    rw [List.cons_append, pieces_blank hc, ih hgap]

/-- A text in which no piece ends is held before the next character is looked at. -/
theorem pieces_append_of_unbroken {held more : List Char} (hheld : held ≠ [])
    (h : Unbroken accepts (held ++ more)) (rest : List Char) :
    pieces accepts held (more ++ rest) = pieces accepts (held ++ more) rest := by
  induction more generalizing held with
  | nil => rw [List.nil_append, List.append_nil]
  | cons c more ih =>
    -- the next character is held, and what is held together with the rest stays the same text
    have hgo : ¬Stops accepts held c := h held c more rfl hheld
    rw [List.append_cons] at h ⊢
    rw [List.cons_append, pieces_hold hheld hgo, ih (by simp) h]

/-- A piece that nothing breaks, and that stops in front of what comes next, is cut off whole. -/
theorem pieces_eq_cons {c : Char} {cs rest : List Char} (hc : isBlank c = false)
    (hinside : Unbroken accepts (c :: cs)) (hstop : ∀ d ∈ rest.head?, Stops accepts (c :: cs) d) :
    pieces accepts [] (c :: cs ++ rest) = (c :: cs) :: pieces accepts [] rest := by
  have hheld : pieces accepts [] (c :: cs ++ rest) = pieces accepts (c :: cs) rest := by
    rw [List.cons_append, pieces_open hc]
    exact pieces_append_of_unbroken (List.cons_ne_nil c []) hinside rest
  rw [hheld]
  cases rest with
  | nil => simp [pieces]
  | cons d rest => exact pieces_stop (List.cons_ne_nil c cs) (hstop d rfl) rest

/-! ## Unbroken texts -/

theorem unbroken_append {cs more : List Char} (h : Unbroken accepts cs)
    (hmore : ∀ front c back, more = front ++ c :: back → accepts (cs ++ front ++ [c]) = true) :
    Unbroken accepts (cs ++ more) := by
  intro front c back heq hfront hstops
  rcases List.append_eq_append_iff.1 heq with ⟨front', rfl, hrest⟩ | ⟨back', rfl, hrest⟩
  · -- the character stands behind the first text
    have hread := hmore front' c back hrest
    rw [hstops.2] at hread
    cases hread
  · cases back' with
    | nil =>
      have hread := hmore [] c back hrest.symm
      rw [List.append_nil, List.append_nil, hstops.2] at hread
      cases hread
    | cons c' back' =>
      obtain ⟨rfl, -⟩ := List.cons.inj hrest
      exact h front c back' rfl hfront hstops

end FilterLang
