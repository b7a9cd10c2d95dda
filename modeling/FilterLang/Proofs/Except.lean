/-!
# Computations that can fail

When a sequence of two computations succeeds and when it fails, what a loop over a list preserves if it
does not fail, and what a map over a list gives.
-/

namespace FilterLang

variable {α β ε ε' σ : Type}

theorem mapError_ok (f : ε → ε') (a : α) : (Except.ok a : Except ε α).mapError f = .ok a := rfl

theorem mapError_error (f : ε → ε') (e : ε) :
    (Except.error e : Except ε α).mapError f = .error (f e) := rfl

theorem except_bind_eq_ok_iff {x : Except ε α} {f : α → Except ε β} {b : β} :
    x >>= f = .ok b ↔ ∃ a, x = .ok a ∧ f a = .ok b := by
  cases x with
  | error e =>
    constructor
    · intro h
      cases h
    · rintro ⟨a, h, -⟩
      cases h
  | ok a =>
    constructor
    · intro h
      exact ⟨a, rfl, h⟩
    · rintro ⟨a', h, hf⟩
      cases h
      exact hf

theorem except_bind_eq_error_iff {x : Except ε α} {f : α → Except ε β} {e : ε} :
    x >>= f = .error e ↔ x = .error e ∨ ∃ a, x = .ok a ∧ f a = .error e := by
  cases x with
  | error e' =>
    constructor
    · intro h
      cases h
      exact .inl rfl
    · rintro (h | ⟨a, h, -⟩)
      · cases h
        rfl
      · cases h
  | ok a =>
    constructor
    · intro h
      exact .inr ⟨a, rfl, h⟩
    · rintro (h | ⟨a', h, hf⟩)
      · cases h
      · cases h
        exact hf

/-- What every step preserves is preserved by the whole loop. -/
theorem foldlM_preserves {f : σ → α → Except ε σ} {P : σ → Prop}
    (hstep : ∀ s a s', P s → f s a = .ok s' → P s') {as : List α} {s s' : σ} (hs : P s)
    (h : as.foldlM f s = .ok s') : P s' := by
  induction as generalizing s with
  | nil =>
    cases h
    exact hs
  | cons a as ih =>
    rw [List.foldlM_cons, except_bind_eq_ok_iff] at h
    obtain ⟨next, hnext, hrest⟩ := h
    exact ih (hstep s a next hs hnext) hrest

/-- A loop that fails does so in one of its steps, and all steps in front of it succeed. -/
theorem foldlM_eq_error {f : σ → α → Except ε σ} {as : List α} {s : σ} {e : ε}
    (h : as.foldlM f s = .error e) :
    ∃ front a back s', as = front ++ a :: back ∧ front.foldlM f s = .ok s' ∧ f s' a = .error e := by
  induction as generalizing s with
  | nil => cases h
  | cons a as ih =>
    rw [List.foldlM_cons, except_bind_eq_error_iff] at h
    rcases h with hfirst | ⟨next, hnext, hrest⟩
    · exact ⟨[], a, as, s, rfl, rfl, hfirst⟩
    · obtain ⟨front, b, back, s', rfl, hfront, hstep⟩ := ih hrest
      refine ⟨a :: front, b, back, s', rfl, ?_, hstep⟩
      rw [List.foldlM_cons, hnext]
      exact hfront

/-- The first step that fails decides. -/
theorem foldlM_eq_error_of_step {f : σ → α → Except ε σ} {front back : List α} {a : α} {s s' : σ} {e : ε}
    (hfront : front.foldlM f s = .ok s') (hstep : f s' a = .error e) :
    (front ++ a :: back).foldlM f s = .error e := by
  rw [List.foldlM_append, hfront]
  show (a :: back).foldlM f s' = .error e
  rw [List.foldlM_cons, hstep]
  rfl

theorem mapM_eq_ok_map {f : α → Except ε β} {g : α → β} {as : List α}
    (h : ∀ a ∈ as, f a = .ok (g a)) : as.mapM f = .ok (as.map g) := by
  induction as with
  | nil => rfl
  | cons a as ih =>
    obtain ⟨ha, has⟩ := List.forall_mem_cons.1 h
    rw [List.mapM_cons, ha, ih has]
    rfl

theorem exists_of_mapM_eq_ok {f : α → Except ε β} {as : List α} {bs : List β}
    (h : as.mapM f = .ok bs) : ∀ a ∈ as, ∃ b, f a = .ok b := by
  induction as generalizing bs with
  | nil => simp
  | cons a as ih =>
    rw [List.mapM_cons, except_bind_eq_ok_iff] at h
    obtain ⟨b, hb, hrest⟩ := h
    obtain ⟨bs', hbs', -⟩ := except_bind_eq_ok_iff.1 hrest
    rw [List.forall_mem_cons]
    exact ⟨⟨b, hb⟩, ih hbs'⟩

/-- The cause for which a computation fails, if it does. -/
def cause? : Except ε α → Option ε
  | .ok _ => none
  | .error e => some e

theorem cause?_eq_none_iff {x : Except ε α} : cause? x = none ↔ ∃ a, x = .ok a := by
  cases x with
  | ok a => simp [cause?]
  | error e => simp [cause?]

theorem cause?_eq_some_iff {x : Except ε α} {e : ε} : cause? x = some e ↔ x = .error e := by
  cases x with
  | ok a => simp [cause?]
  | error e' => simp [cause?]

/-- A map over a list fails for the first cause that there is. -/
theorem cause?_mapM {f : α → Except ε β} {g : α → Option ε} {as : List α}
    (h : ∀ a ∈ as, cause? (f a) = g a) : cause? (as.mapM f) = as.findSome? g := by
  induction as with
  | nil => rfl
  | cons a as ih =>
    obtain ⟨ha, has⟩ := List.forall_mem_cons.1 h
    rw [List.mapM_cons, List.findSome?_cons, ← ha, ← ih has]
    cases f a with
    | error e => rfl
    | ok b =>
      cases as.mapM f with
      | error e => rfl
      | ok bs => rfl

/-- A loop fails for the first cause that there is, if the causes do not depend on the state. -/
theorem cause?_foldlM {f : σ → α → Except ε σ} {g : α → Option ε} {as : List α} {s : σ}
    (h : ∀ s, ∀ a ∈ as, cause? (f s a) = g a) : cause? (as.foldlM f s) = as.findSome? g := by
  induction as generalizing s with
  | nil => rfl
  | cons a as ih =>
    have ha : cause? (f s a) = g a := h s a List.mem_cons_self
    have hrest : ∀ s, ∀ b ∈ as, cause? (f s b) = g b := by
      intro s b hb
      exact h s b (List.mem_cons_of_mem a hb)
    rw [List.foldlM_cons, List.findSome?_cons, ← ha]
    cases f s a with
    | error e => rfl
    | ok s' => exact ih hrest

theorem exists_of_foldlM_eq_error {f : σ → α → Except ε σ} {as : List α} {s : σ} {e : ε}
    (h : as.foldlM f s = .error e) : ∃ a ∈ as, ∃ s', f s' a = .error e := by
  obtain ⟨front, a, back, s', rfl, -, hstep⟩ := foldlM_eq_error h
  exact ⟨a, List.mem_append_right front List.mem_cons_self, s', hstep⟩

end FilterLang
