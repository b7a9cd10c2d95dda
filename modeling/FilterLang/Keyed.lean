/-!
# Entries sorted by key

A finite map from strings, kept as a list of entries in ascending order of their keys (by code
point), each key once.  A later entry for a key replaces the earlier one: `get?_insert` is the whole
behaviour of `insert`, and `ext_get?` says that nothing but the values found matters.
-/

namespace FilterLang

/-- Values under string keys, in ascending order of the keys. -/
structure Keyed (α : Type) where
  entries : List (String × α) := []
  sorted : entries.Pairwise fun a b => a.1 < b.1 := by exact List.Pairwise.nil

namespace Keyed

variable {α β : Type}

/-! ## Inserting -/

/-- Puts an entry at its place in a sorted list, in place of an entry with the same key. -/
def insertEntry (key : String) (value : α) : List (String × α) → List (String × α)
  | [] => [(key, value)]
  | (k, v) :: rest =>
    if key < k then (key, value) :: (k, v) :: rest
    else if key = k then (key, value) :: rest
    else (k, v) :: insertEntry key value rest

theorem key_of_mem_insertEntry {key : String} {value : α} {entries : List (String × α)}
    {e : String × α} (h : e ∈ insertEntry key value entries) : e.1 = key ∨ e ∈ entries := by
  induction entries with
  | nil => simp_all [insertEntry]
  | cons head rest ih =>
    simp only [insertEntry] at h
    split at h
    · rcases List.mem_cons.1 h with rfl | h
      · exact .inl rfl
      · exact .inr h
    · split at h
      · rcases List.mem_cons.1 h with rfl | h
        · exact .inl rfl
        · exact .inr (List.mem_cons_of_mem _ h)
      · rcases List.mem_cons.1 h with rfl | h
        · exact .inr List.mem_cons_self
        · exact (ih h).imp_right (List.mem_cons_of_mem _)

theorem sorted_insertEntry {key : String} {value : α} {entries : List (String × α)}
    (h : entries.Pairwise fun a b => a.1 < b.1) :
    (insertEntry key value entries).Pairwise fun a b => a.1 < b.1 := by
  induction entries with
  | nil => simp [insertEntry]
  | cons head rest ih =>
    obtain ⟨hhead, hrest⟩ := List.pairwise_cons.1 h
    simp only [insertEntry]
    split
    · rename_i hlt
      refine List.pairwise_cons.2 ⟨fun e he => ?_, h⟩
      rcases List.mem_cons.1 he with rfl | he
      · exact hlt
      · exact String.lt_trans hlt (hhead e he)
    · split
      · rename_i heq
        exact List.pairwise_cons.2 ⟨fun e he => heq ▸ hhead e he, hrest⟩
      · rename_i hlt hne
        refine List.pairwise_cons.2 ⟨fun e he => ?_, ih hrest⟩
        rcases key_of_mem_insertEntry he with hkey | he
        · rw [hkey]
          exact Std.lt_of_le_of_ne (String.not_lt.1 hlt) (Ne.symm hne)
        · exact hhead e he

/-- The map with the value under the key. -/
def insert (m : Keyed α) (key : String) (value : α) : Keyed α :=
  ⟨insertEntry key value m.entries, sorted_insertEntry m.sorted⟩

/-- The map of a list of entries, of which the last counts where keys agree. -/
def ofList (entries : List (String × α)) : Keyed α :=
  entries.foldl (fun m e => m.insert e.1 e.2) {}

/-! ## Looking up -/

/-- The value of the first entry with the key. -/
def findValue? (key : String) : List (String × α) → Option α
  | [] => none
  | (k, v) :: rest => if k = key then some v else findValue? key rest

/-- The value under a key. -/
def get? (m : Keyed α) (key : String) : Option α :=
  findValue? key m.entries

/-- Whether there is a value under the key. -/
def contains (m : Keyed α) (key : String) : Bool :=
  (m.get? key).isSome

/-- The keys in ascending order. -/
def keys (m : Keyed α) : List String :=
  m.entries.map (·.1)

/-- The number of entries. -/
def size (m : Keyed α) : Nat :=
  m.entries.length

theorem findValue?_insertEntry (key : String) (value : α) (entries : List (String × α)) (k : String) :
    findValue? k (insertEntry key value entries) =
      if key = k then some value else findValue? k entries := by
  induction entries with
  | nil => rfl
  | cons head rest ih =>
    obtain ⟨k', v'⟩ := head
    simp only [insertEntry]
    split
    · rfl
    · split
      · rename_i heq
        subst heq
        by_cases h : key = k <;> simp [findValue?, h]
      · rename_i hne
        by_cases h : k' = k
        · subst h
          simp [findValue?, hne]
        · simp [findValue?, h, ih]

/-- The entry inserted is found under its key, and all others are as before. -/
theorem get?_insert (m : Keyed α) (key : String) (value : α) (k : String) :
    (m.insert key value).get? k = if key = k then some value else m.get? k :=
  findValue?_insertEntry key value m.entries k

/-- In a sorted list a value is found exactly where its entry is. -/
theorem findValue?_eq_some_iff {entries : List (String × α)}
    (h : entries.Pairwise fun a b => a.1 < b.1) {key : String} {value : α} :
    findValue? key entries = some value ↔ (key, value) ∈ entries := by
  induction entries with
  | nil => simp [findValue?]
  | cons head rest ih =>
    obtain ⟨k, v⟩ := head
    obtain ⟨hhead, hrest⟩ := List.pairwise_cons.1 h
    by_cases hk : k = key
    · subst hk
      have hnot : (k, value) ∉ rest := fun hmem => String.lt_irrefl k (hhead _ hmem)
      simp [findValue?, hnot, eq_comm]
    · simp [findValue?, hk, ih hrest, Ne.symm hk]

theorem get?_eq_some_iff {m : Keyed α} {key : String} {value : α} :
    m.get? key = some value ↔ (key, value) ∈ m.entries :=
  findValue?_eq_some_iff m.sorted

/-- A map is determined by what is found in it. -/
theorem ext_get? {m m' : Keyed α} (h : ∀ key, m.get? key = m'.get? key) : m = m' := by
  have hnodup : ∀ k : Keyed α, k.entries.Nodup := by
    intro k
    refine k.sorted.imp ?_
    rintro a b hlt rfl
    exact String.lt_irrefl _ hlt
  have hperm : m.entries.Perm m'.entries := by
    rw [List.perm_ext_iff_of_nodup (hnodup m) (hnodup m')]
    rintro ⟨key, value⟩
    rw [← get?_eq_some_iff, ← get?_eq_some_iff, h]
  have hentries : m.entries = m'.entries := by
    refine hperm.eq_of_pairwise ?_ m.sorted m'.sorted
    intro a b _ _ hab hba
    exact absurd (String.lt_trans hab hba) (String.lt_irrefl _)
  obtain ⟨entries, _⟩ := m
  obtain ⟨entries', _⟩ := m'
  cases hentries
  rfl

theorem get?_foldl_insert (entries : List (String × α)) (m : Keyed α) (key : String) :
    (entries.foldl (fun m e => m.insert e.1 e.2) m).get? key =
      (entries.reverse.lookup key).or (m.get? key) := by
  induction entries generalizing m with
  | nil => rfl
  | cons e rest ih =>
    obtain ⟨k, v⟩ := e
    rw [List.foldl_cons, ih, get?_insert, List.reverse_cons, List.lookup_append, Option.or_assoc]
    by_cases h : k = key
    · simp [h]
    · simp [List.lookup_cons, beq_eq_false_iff_ne.2 (Ne.symm h), h]

/-- Of a list of entries the last one with the key is found. -/
theorem get?_ofList (entries : List (String × α)) (key : String) :
    (ofList entries).get? key = entries.reverse.lookup key := by
  rw [ofList, get?_foldl_insert]
  exact Option.or_none

/-- Other values under the same keys are found where the values were. -/
theorem lookup_map (f : α → β) (entries : List (String × α)) (key : String) :
    (entries.map fun e => (e.1, f e.2)).lookup key = (entries.lookup key).map f := by
  induction entries with
  | nil => rfl
  | cons e rest ih =>
    rw [List.map_cons, List.lookup_cons, List.lookup_cons, ih]
    cases key == e.1 <;> rfl

/-- Where the value depends on nothing but the name, the order of the names does not matter. -/
theorem get?_ofList_map {names : List String} {value : String → α} (key : String) :
    (ofList (names.map fun name => (name, value name))).get? key =
      if key ∈ names then some (value key) else none := by
  rw [get?_ofList, ← List.map_reverse]
  have hreverse : key ∈ names ↔ key ∈ names.reverse := List.mem_reverse.symm
  simp only [hreverse]
  induction names.reverse with
  | nil => rfl
  | cons name rest ih =>
    rw [List.map_cons, List.lookup_cons, ih]
    by_cases h : key = name
    · simp [h]
    · simp [beq_eq_false_iff_ne.2 h, h]

/-- The same keys with other values. -/
def mapValues (f : α → β) (m : Keyed α) : Keyed β :=
  ⟨m.entries.map fun e => (e.1, f e.2), List.pairwise_map.2 m.sorted⟩

/-- The same keys, each value made from its key and the value before. -/
def mapEntries (f : String → α → β) (k : Keyed α) : Keyed β :=
  ⟨k.entries.map fun e => (e.1, f e.1 e.2), List.pairwise_map.2 k.sorted⟩

theorem get?_mapEntries (f : String → α → β) (k : Keyed α) (key : String) :
    (k.mapEntries f).get? key = (k.get? key).map (f key) := by
  obtain ⟨entries, sorted⟩ := k
  simp only [get?, mapEntries]
  clear sorted
  induction entries with
  | nil => rfl
  | cons e rest ih =>
    by_cases h : e.1 = key
    · simp [findValue?, h]
    · simp [findValue?, h, ih]

theorem get?_mapValues (f : α → β) (m : Keyed α) (key : String) :
    (m.mapValues f).get? key = (m.get? key).map f :=
  get?_mapEntries (fun _ => f) m key

theorem mapValues_ofList (f : α → β) (entries : List (String × α)) :
    (ofList entries).mapValues f = ofList (entries.map fun e => (e.1, f e.2)) := by
  refine ext_get? fun key => ?_
  rw [get?_mapValues, get?_ofList, get?_ofList, ← List.map_reverse, lookup_map]

end Keyed

end FilterLang
