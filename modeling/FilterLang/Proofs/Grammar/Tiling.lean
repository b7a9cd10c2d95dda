import FilterLang.Proofs.Grammar.Pieces

/-!
# How pieces tile a text

Cutting a text loses nothing and repeats nothing: the pieces stand one behind the other, and between
them there are only blanks.  `Tiling accepts cs ps rest` says so of the text `cs`, of which the pieces
`ps` have been cut off and `rest` is left; it says with it where each piece ends.  `pieces` gives a
tiling of the whole text (`tiling_pieces`), and it is the only one (`pieces_of_tiling`).
-/

namespace FilterLang

open Text

variable {accepts : List Char → Bool}

/-! ## The next piece -/

/-- The first piece of a text that goes on with `rest` behind it.  If something is left, the piece is the
shortest text in front that can be read but not with the character behind it; if nothing is left,
there is no such text. -/
structure NextPiece (accepts : List Char → Bool) (piece rest : List Char) : Prop where
  opens : ∃ c ∈ piece.head?, isBlank c = false
  unbroken : Unbroken accepts piece
  stops : ∀ d ∈ rest.head?, Stops accepts piece d

namespace NextPiece

variable {piece rest : List Char}

theorem exists_cons (h : NextPiece accepts piece rest) : ∃ c cs, piece = c :: cs ∧ isBlank c = false := by
  obtain ⟨c, hc, hblank⟩ := h.opens
  cases piece with
  | nil => cases hc
  | cons d cs =>
    cases hc
    exact ⟨c, cs, rfl, hblank⟩

/-- Wherever else a piece could end, this one ends no later. -/
theorem length_le_of_stops (h : NextPiece accepts piece rest) {front back : List Char} {d : Char}
    (heq : piece ++ rest = front ++ d :: back) (hfront : front ≠ []) (hstops : Stops accepts front d) :
    piece.length ≤ front.length := by
  rcases List.append_eq_append_iff.1 heq with ⟨more, rfl, -⟩ | ⟨more, hpiece, hrest⟩
  · simp
  · cases more with
    | nil => simp [hpiece]
    | cons d' more =>
      -- the character would stand inside the piece
      obtain ⟨rfl, -⟩ := List.cons.inj hrest
      exact absurd hstops (h.unbroken front d more hpiece hfront)

/-- What follows the first character behind a piece has no say in where the piece ends. -/
theorem of_prefix {more : List Char} (h : NextPiece accepts piece rest) (hmore : more <+: rest) :
    NextPiece accepts piece more := by
  obtain ⟨back, rfl⟩ := hmore
  refine ⟨h.opens, h.unbroken, ?_⟩
  intro d hd
  apply h.stops
  rw [List.head?_append, Option.mem_def.1 hd]
  rfl

theorem pieces_eq (h : NextPiece accepts piece rest) :
    pieces accepts [] (piece ++ rest) = piece :: pieces accepts [] rest := by
  obtain ⟨c, cs, rfl, hc⟩ := h.exists_cons
  exact pieces_eq_cons hc h.unbroken h.stops

end NextPiece

/-! ## Tilings -/

/-- The pieces cut off a text from its beginning, with blanks skipped in front of them, and what is left
of the text. -/
inductive Tiling (accepts : List Char → Bool) : List Char → List (List Char) → List Char → Prop where
  | done (cs : List Char) : Tiling accepts cs [] cs
  | skip {c : Char} {cs : List Char} {ps : List (List Char)} {rest : List Char}
      (blank : isBlank c = true) (tail : Tiling accepts cs ps rest) : Tiling accepts (c :: cs) ps rest
  | cut {piece mid : List Char} {ps : List (List Char)} {rest : List Char}
      (next : NextPiece accepts piece mid) (tail : Tiling accepts mid ps rest) :
      Tiling accepts (piece ++ mid) (piece :: ps) rest

namespace Tiling

variable {cs rest : List Char} {ps qs : List (List Char)}

/-- Any piece of a tiling is the next one of what is left when those in front of it are cut off. -/
theorem split {piece : List Char} (h : Tiling accepts cs (ps ++ piece :: qs) rest) :
    ∃ mid, Tiling accepts cs ps (piece ++ mid) ∧ NextPiece accepts piece mid ∧
      Tiling accepts mid qs rest := by
  generalize hall : ps ++ piece :: qs = all at h
  induction h generalizing ps with
  | done cs => simp at hall
  | skip blank _ ih =>
    obtain ⟨mid, hfront, hnext, hback⟩ := ih hall
    exact ⟨mid, .skip blank hfront, hnext, hback⟩
  | @cut first mid _ _ next tail ih =>
    cases ps with
    | nil =>
      obtain ⟨rfl, rfl⟩ := List.cons.inj hall
      exact ⟨mid, .done _, next, tail⟩
    | cons p ps =>
      obtain ⟨rfl, hrest⟩ := List.cons.inj hall
      obtain ⟨mid', hfront, hnext, hback⟩ := ih hrest
      exact ⟨mid', .cut next hfront, hnext, hback⟩

/-- The part that the pieces are cut off is tiled by them, whatever is left behind it. -/
theorem exists_consumed (h : Tiling accepts cs ps rest) :
    ∃ consumed, cs = consumed ++ rest ∧ Tiling accepts consumed ps [] := by
  induction h with
  | done cs => exact ⟨[], rfl, .done []⟩
  | @skip c _ _ _ blank _ ih =>
    obtain ⟨consumed, rfl, htail⟩ := ih
    exact ⟨c :: consumed, rfl, .skip blank htail⟩
  | @cut piece _ _ _ next _ ih =>
    obtain ⟨consumed, rfl, htail⟩ := ih
    have hnext : NextPiece accepts piece consumed := next.of_prefix (List.prefix_append _ _)
    exact ⟨piece ++ consumed, (List.append_assoc _ _ _).symm, .cut hnext htail⟩

/-- A text that has no piece is blank. -/
theorem blank_of_nil (h : Tiling accepts cs [] []) : Blank cs := by
  generalize hps : ([] : List (List Char)) = ps at h
  generalize hrest : ([] : List Char) = rest at h
  induction h with
  | done cs =>
    rw [← hrest]
    intro c hc
    cases hc
  | skip blank _ ih => exact List.forall_mem_cons.2 ⟨blank, ih hps hrest⟩
  | cut _ _ _ => cases hps

end Tiling

/-! ## Where a piece can end -/

/-- Between a text that can be read and a longer one that cannot, a piece can end. -/
theorem exists_stops {front more : List Char} (hfront : accepts front = true)
    (hmore : accepts (front ++ more) = false) :
    ∃ mid d back, more = mid ++ d :: back ∧ Stops accepts (front ++ mid) d := by
  induction more generalizing front with
  | nil =>
    rw [List.append_nil, hfront] at hmore
    cases hmore
  | cons d more ih =>
    cases hd : accepts (front ++ [d]) with
    | true =>
      rw [List.append_cons] at hmore
      obtain ⟨mid, d', back, rfl, hstops⟩ := ih hd hmore
      refine ⟨d :: mid, d', back, rfl, ?_⟩
      rw [List.append_cons]
      exact hstops
    | false =>
      refine ⟨[], d, more, rfl, ?_⟩
      rw [List.append_nil]
      exact ⟨hfront, hd⟩

/-! ## The pieces are the tiling -/

theorem unbroken_nil : Unbroken accepts [] := by
  intro front d back heq
  simp at heq

theorem unbroken_singleton (c : Char) : Unbroken accepts [c] := by
  intro front d back heq hfront
  rcases List.cons_eq_append_iff.1 heq with ⟨rfl, -⟩ | ⟨front', -, hback⟩
  · exact absurd rfl hfront
  · simp at hback

theorem unbroken_concat {held : List Char} {c : Char} (h : Unbroken accepts held)
    (hc : ¬Stops accepts held c) : Unbroken accepts (held ++ [c]) := by
  intro front d back heq hfront hstops
  rcases List.append_eq_append_iff.1 heq with ⟨more, rfl, hrest⟩ | ⟨more, rfl, hrest⟩
  · -- nothing is left behind the character that was added
    rcases List.cons_eq_append_iff.1 hrest with ⟨rfl, hback⟩ | ⟨_, -, hback⟩
    · obtain ⟨rfl, -⟩ := List.cons.inj hback
      rw [List.append_nil] at hstops
      exact hc hstops
    · simp at hback
  · cases more with
    | nil =>
      obtain ⟨rfl, -⟩ := List.cons.inj hrest
      rw [List.append_nil] at hc
      exact hc hstops
    | cons d' more =>
      obtain ⟨rfl, -⟩ := List.cons.inj hrest
      exact h front d more rfl hfront hstops

/-- From what is held on, cutting tiles the text; what is held is the beginning of a piece that does not
end in it. -/
theorem tiling_pieces_held {held : List Char} (hheld : Unbroken accepts held)
    (hopens : ∀ c ∈ held.head?, isBlank c = false) (cs : List Char) :
    Tiling accepts (held ++ cs) (pieces accepts held cs) [] := by
  induction cs generalizing held with
  | nil =>
    cases held with
    | nil => exact .done []
    | cons c held =>
      have hnext : NextPiece accepts (c :: held) [] := by
        refine ⟨⟨c, rfl, hopens c rfl⟩, hheld, ?_⟩
        intro d hd
        cases hd
      exact .cut hnext (.done [])
  | cons c cs ih =>
    -- with nothing held, a blank is skipped and any other character begins a piece
    have hstart : Tiling accepts (c :: cs) (pieces accepts [] (c :: cs)) [] := by
      cases hc : isBlank c with
      | true =>
        rw [pieces_blank hc]
        exact .skip hc (ih unbroken_nil (by simp))
      | false =>
        rw [pieces_open hc]
        refine ih (unbroken_singleton c) ?_
        intro d hd
        cases hd
        exact hc
    cases held with
    | nil => exact hstart
    | cons o held =>
      have hne : o :: held ≠ [] := List.cons_ne_nil o held
      by_cases hstops : Stops accepts (o :: held) c
      · rw [pieces_stop hne hstops]
        have hnext : NextPiece accepts (o :: held) (c :: cs) := by
          refine ⟨⟨o, rfl, hopens o rfl⟩, hheld, ?_⟩
          intro d hd
          cases hd
          exact hstops
        exact .cut hnext hstart
      · rw [pieces_hold hne hstops, List.append_cons]
        exact ih (unbroken_concat hheld hstops) hopens

theorem tiling_pieces (accepts : List Char → Bool) (cs : List Char) : Tiling accepts cs (pieces accepts [] cs) [] :=
  tiling_pieces_held unbroken_nil (by simp) cs

/-- No piece begins with a blank. -/
theorem exists_cons_of_mem_pieces {cs piece : List Char} (h : piece ∈ pieces accepts [] cs) :
    ∃ c rest, piece = c :: rest ∧ isBlank c = false := by
  obtain ⟨front, back, hpieces⟩ := List.append_of_mem h
  have htiling := tiling_pieces accepts cs
  rw [hpieces] at htiling
  obtain ⟨mid, -, hnext, -⟩ := htiling.split
  exact hnext.exists_cons

/-- What is cut off a text is cut off by `pieces` too, and what is left is what it goes on with. -/
theorem pieces_of_tiling {cs rest : List Char} {ps : List (List Char)} (h : Tiling accepts cs ps rest) :
    pieces accepts [] cs = ps ++ pieces accepts [] rest := by
  induction h with
  | done cs => rfl
  | skip blank _ ih => rw [pieces_blank blank, ih]
  | cut next _ ih => rw [next.pieces_eq, ih, List.cons_append]

/-- Only a blank text has no piece. -/
theorem pieces_eq_nil_iff {cs : List Char} : pieces accepts [] cs = [] ↔ Blank cs := by
  constructor
  · intro h
    have htiling := tiling_pieces accepts cs
    rw [h] at htiling
    exact htiling.blank_of_nil
  · intro h
    rw [← List.append_nil cs, pieces_skip h]
    rfl

/-- A text that begins with no blank has a first piece. -/
theorem exists_nextPiece (accepts : List Char → Bool) {c : Char} (hc : isBlank c = false) (cs : List Char) :
    ∃ piece rest, c :: cs = piece ++ rest ∧ NextPiece accepts piece rest := by
  have hne : pieces accepts [] (c :: cs) ≠ [] := by
    intro hnil
    have hblank : isBlank c = true := pieces_eq_nil_iff.1 hnil c List.mem_cons_self
    rw [hc] at hblank
    cases hblank
  obtain ⟨piece, ps, hpieces⟩ := List.exists_cons_of_ne_nil hne
  have htiling := tiling_pieces accepts (c :: cs)
  rw [hpieces] at htiling
  generalize hall : c :: cs = all at htiling
  cases htiling with
  | skip blank _ =>
    obtain ⟨rfl, -⟩ := List.cons.inj hall
    rw [hc] at blank
    cases blank
  | @cut _ mid _ _ next _ => exact ⟨piece, mid, rfl, next⟩

end FilterLang
