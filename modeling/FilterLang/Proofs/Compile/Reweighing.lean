import FilterLang.Proofs.Compile.Operators
import FilterLang.Proofs.Expr.Reweighing
import Mathlib.Data.List.Nodup

/-!
# Only the order of weights matters

The operators of a grammar can be listed in another order and given other weights that lie in the same order, and
every expression is compiled as before, or refused as before (`Settings.Renumbers.compile_renumbered`).

The list of operators says which of them is tried first, but two operators with different tokens never read the
same text.  So both grammars read every text as the same unit, up to the weight
(`Settings.Renumbers.read?_eq`), and cut it into the same pieces.  From then on the two trees grow alike: each
unit goes to the same place, as the operators that are there are those of the grammar and lie in the same order
(`Progress.read_reweigh`).
-/

namespace FilterLang

variable {ρ : Type} {f : UInt32 → UInt32}

/-! ## Reading -/

/-- If no two entries give different results, then what is found first is what any entry gives. -/
theorem findSome?_eq_some_iff_of_agree {α β : Type} {g : α → Option β} {l : List α}
    (hagree : ∀ a ∈ l, ∀ b ∈ l, ∀ x y, g a = some x → g b = some y → x = y) {x : β} :
    l.findSome? g = some x ↔ ∃ a ∈ l, g a = some x := by
  constructor
  · exact List.exists_of_findSome?_eq_some
  · rintro ⟨a, ha, hx⟩
    have hsome : (l.findSome? g).isSome = true := by
      rw [List.findSome?_isSome_iff]
      exact ⟨a, ha, by rw [hx]; rfl⟩
    obtain ⟨y, hy⟩ := Option.isSome_iff_exists.1 hsome
    obtain ⟨b, hb, hby⟩ := List.exists_of_findSome?_eq_some hy
    rw [hy, hagree b hb a ha y x hby hx]

/-- Then the order of the entries does not matter. -/
theorem findSome?_eq_of_perm {α β : Type} {g : α → Option β} {l l' : List α} (h : l.Perm l')
    (hagree : ∀ a ∈ l, ∀ b ∈ l, ∀ x y, g a = some x → g b = some y → x = y) :
    l.findSome? g = l'.findSome? g := by
  have hagree' : ∀ a ∈ l', ∀ b ∈ l', ∀ x y, g a = some x → g b = some y → x = y := by
    intro a ha b hb
    exact hagree a (h.mem_iff.2 ha) b (h.mem_iff.2 hb)
  apply Option.ext
  intro x
  simp only [findSome?_eq_some_iff_of_agree hagree, findSome?_eq_some_iff_of_agree hagree', h.mem_iff]

/-- The pattern with another weight. -/
def Pattern.reweigh (f : UInt32 → UInt32) : Pattern ρ → Pattern ρ
  | integer => integer
  | boolean => boolean
  | string quote => string quote
  | field => field
  | operator op => operator (op.reweigh f)

/-- Which texts a pattern reads does not depend on the weight. -/
theorem Pattern.read?_reweigh (p : Pattern ρ) (cs : List Char) :
    (p.reweigh f).read? cs = (p.read? cs).map (Except.map (Lexeme.reweigh f)) := by
  cases p with
  | integer =>
    simp only [reweigh, read?, Option.map_map]
    congr 1
    funext r
    cases r <;> rfl
  | boolean =>
    simp only [reweigh, read?, Option.map_map]
    rfl
  | string quote =>
    simp only [reweigh, read?, Option.map_map]
    rfl
  | field =>
    simp only [reweigh, read?, Option.map_map]
    rfl
  | operator op =>
    have hread : ∀ o : Operator ρ, (operator o).read? cs =
        if String.ofList (Text.trim cs) = o.token then some (.ok (.operator o)) else none :=
      fun _ => rfl
    rw [reweigh, hread, hread, Operator.token_reweigh]
    by_cases h : String.ofList (Text.trim cs) = op.token
    · rw [if_pos h, if_pos h]
      rfl
    · rw [if_neg h, if_neg h]
      rfl

/-! ## Taking in pieces -/

/-- The same progress with other weights. -/
def Progress.reweigh (f : UInt32 → UInt32) (p : Progress ρ) : Progress ρ :=
  { p with tree := p.tree.reweigh f }

/-- Whether the second grammar reads every text as the first one does, up to the weights, and these lie in the
same order. -/
structure Grammar.Reweighs (f : UInt32 → UInt32) (g g' : Grammar ρ) : Prop where
  read?_eq : ∀ cs, g'.read? cs = (g.read? cs).map (Except.map (Lexeme.reweigh f))
  lt_iff_lt : ∀ o op, g.HasOperator o → g.HasOperator op →
    (f o.weight < f op.weight ↔ o.weight < op.weight)

variable {g g' : Grammar ρ}

theorem Grammar.Reweighs.accepts_eq (h : g.Reweighs f g') : g'.accepts = g.accepts := by
  funext cs
  rw [Grammar.accepts, h.read?_eq, Option.isSome_map, Grammar.accepts]

section Compiling

variable [Reducer ρ] [WeightBlind ρ]

theorem Progress.add_reweigh {p : Progress ρ} {u : Lexeme ρ}
    (h : ∀ op, u = .operator op → ∀ o ∈ p.tree.operators,
      (f o.weight < f op.weight ↔ o.weight < op.weight)) :
    (p.reweigh f).add (u.reweigh f) = (p.add u).map (Progress.reweigh f) := by
  have hcount : (p.reweigh f).operatorsWith (u.reweigh f) = p.operatorsWith u := by
    simp only [Progress.operatorsWith, Progress.reweigh, Lexeme.isOperator_reweigh]
  rw [Progress.add_eq, Progress.add_eq, hcount]
  by_cases hmany : maxOperators < p.operatorsWith u
  · rw [if_pos hmany, if_pos hmany]
    rfl
  · rw [if_neg hmany, if_neg hmany, Progress.reweigh, Tree.add_reweigh h]
    cases p.tree.add u with
    | error e => rfl
    | ok t => rfl

/-- The next piece is taken in as before. -/
theorem Progress.read_reweigh (h : g.Reweighs f g') {p : Progress ρ} (hp : p.Within g)
    (piece : List Char) : (p.reweigh f).read g' piece = (p.read g piece).map (Progress.reweigh f) := by
  simp only [Progress.read, h.read?_eq]
  cases hread : g.read? piece with
  | none => rfl
  | some r =>
    cases r with
    | error e => rfl
    | ok u =>
      apply Progress.add_reweigh
      -- the operators that are there and the one that comes are all of the grammar
      rintro op rfl o ho
      exact h.lt_iff_lt o op (hp o ho) (Grammar.token_of_read? hread).1

/-- So are all pieces, one by one. -/
theorem foldlM_read_reweigh (h : g.Reweighs f g') {p : Progress ρ} (hp : p.Within g)
    (read : List (List Char)) :
    read.foldlM (Progress.read g') (p.reweigh f) =
      (read.foldlM (Progress.read g) p).map (Progress.reweigh f) := by
  induction read generalizing p with
  | nil => rfl
  | cons piece rest ih =>
    rw [List.foldlM_cons, List.foldlM_cons, Progress.read_reweigh h hp]
    cases hread : p.read g piece with
    | error e => rfl
    | ok q => exact ih (Progress.within_read hp hread)

theorem Grammar.Reweighs.compile_eq (h : g.Reweighs f g') (expression : String) :
    compile g' expression = (compile g expression).map (Tree.reweigh f) := by
  have hfold := foldlM_read_reweigh h (Progress.within_start g)
    (pieces g.accepts [] expression.toList)
  rw [compile, compile, h.accepts_eq]
  -- there is nothing to renumber at the start
  show (List.foldlM (Progress.read g') (Progress.reweigh f {}) _ >>= _) = _
  rw [hfold]
  cases (pieces g.accepts [] expression.toList).foldlM (Progress.read g) {} with
  | error e => rfl
  | ok p =>
    show (if (p.tree.reweigh f).isHole = true then _ else _) =
      (if p.tree.isHole = true then _ else _ : Except ExprError (Tree ρ)).map _
    rw [Tree.isHole_reweigh]
    split <;> rfl

end Compiling

/-! ## Settings -/

/-- The setting with another weight. -/
def OperatorSetting.reweigh (f : UInt32 → UInt32) (o : OperatorSetting) : OperatorSetting :=
  { o with weight := f o.weight }

namespace Settings

/-- The weights of all operators, that of the decimal operator first. -/
def weights (s : Settings) : List UInt32 :=
  (s.decimal.map OperatorSetting.weight).toList ++ s.operators.map OperatorSetting.weight

/-- Whether the second settings are the first with all weights renumbered in the same order, and with the
operators, whose tokens are pairwise distinct, in any order. -/
structure Renumbers (f : UInt32 → UInt32) (s s' : Settings) : Prop where
  quote : s'.quote = s.quote
  booleans : s'.booleans = s.booleans
  decimal : s'.decimal = s.decimal.map (OperatorSetting.reweigh f)
  operators : s'.operators.Perm (s.operators.map (OperatorSetting.reweigh f))
  distinct : (s.operators.map OperatorSetting.token).Nodup
  increasing : Increasing f s.weights

variable {s s' : Settings}

/-- No text is read as two operators with different tokens. -/
theorem agree_of_distinct (h : (s.operators.map OperatorSetting.token).Nodup) (cs : List Char) :
    ∀ o ∈ s.operators, ∀ o' ∈ s.operators, ∀ r r' : Except ExprError (Lexeme ρ),
      (Pattern.operator o.binary).read? cs = some r → (Pattern.operator o'.binary).read? cs = some r' →
        r = r' := by
  intro o ho o' ho' r r' hr hr'
  have hread : (Pattern.read? (.operator (o.binary : Operator ρ)) cs).isSome = true := by
    rw [hr]
    rfl
  have hread' : (Pattern.read? (.operator (o'.binary : Operator ρ)) cs).isSome = true := by
    rw [hr']
    rfl
  rw [Pattern.isSome_read?_operator] at hread hread'
  have htoken : o.token = o'.token := String.toList_inj.1 (hread.symm.trans hread')
  obtain rfl : o = o' := List.inj_on_of_nodup_map h ho ho' htoken
  rw [hr] at hr'
  exact Option.some.inj hr'

theorem mem_weights_of_hasOperator {point : ρ} {op : Operator ρ} (h : (s.grammar point).HasOperator op) :
    op.weight ∈ s.weights := by
  rcases hasOperator_iff.1 h with ⟨d, hd, rfl⟩ | ⟨o, ho, rfl⟩
  · apply List.mem_append_left
    rw [hd]
    exact List.mem_singleton_self _
  · exact List.mem_append_right _ (List.mem_map_of_mem ho)

namespace Renumbers

theorem distinct' (h : s.Renumbers f s') : (s'.operators.map OperatorSetting.token).Nodup := by
  have hperm := h.operators.map OperatorSetting.token
  rw [List.map_map] at hperm
  exact hperm.nodup_iff.2 h.distinct

/-- The patterns in front of the operators are the same ones, with the decimal operator renumbered. -/
theorem exists_front (h : s.Renumbers f s') (point : ρ) :
    ∃ front : List (Pattern ρ),
      (s.grammar point).patterns = front ++ s.operators.map (fun o => .operator o.binary) ∧
      (s'.grammar point).patterns =
        front.map (Pattern.reweigh f) ++ s'.operators.map (fun o => .operator o.binary) := by
  refine ⟨_, rfl, ?_⟩
  rw [grammar, h.quote, h.booleans, h.decimal]
  cases s.booleans <;> cases s.decimal <;> rfl

/-- A text is read as one of the operators before exactly if it is so afterwards. -/
theorem findSome?_operators (h : s.Renumbers f s') (cs : List Char) :
    s'.operators.findSome? (fun o => (Pattern.operator (o.binary : Operator ρ)).read? cs) =
      (s.operators.findSome? fun o => (Pattern.operator (o.binary : Operator ρ)).read? cs).map
        (Except.map (Lexeme.reweigh f)) := by
  rw [findSome?_eq_of_perm h.operators (agree_of_distinct h.distinct' cs), List.findSome?_map,
    List.map_findSome?]
  congr 1
  funext o
  exact (Pattern.operator o.binary).read?_reweigh cs

theorem read?_eq (h : s.Renumbers f s') (point : ρ) (cs : List Char) :
    (s'.grammar point).read? cs =
      ((s.grammar point).read? cs).map (Except.map (Lexeme.reweigh f)) := by
  obtain ⟨front, hpatterns, hpatterns'⟩ := h.exists_front point
  have hfront : (front.map (Pattern.reweigh f)).findSome? (fun p => p.read? cs) =
      (front.findSome? fun p => p.read? cs).map (Except.map (Lexeme.reweigh f)) := by
    rw [List.findSome?_map, List.map_findSome?]
    congr 1
    funext p
    exact p.read?_reweigh cs
  have hoperators := findSome?_operators (ρ := ρ) h cs
  rw [Grammar.read?, Grammar.read?, hpatterns, hpatterns', List.findSome?_append,
    List.findSome?_append, hfront, Option.map_or, List.findSome?_map, List.findSome?_map]
  exact congrArg _ hoperators

theorem reweighs (h : s.Renumbers f s') (point : ρ) :
    (s.grammar point).Reweighs f (s'.grammar point) where
  read?_eq := h.read?_eq point
  lt_iff_lt _ _ ho hop :=
    h.increasing.lt_iff_lt (mem_weights_of_hasOperator ho) (mem_weights_of_hasOperator hop)

/-- Only the order of the weights and the set of operators matter: whatever expression is compiled, the
renumbered settings refuse it for the same cause or give the same tree with the weights renumbered, and so the
same canonical text. -/
theorem compile_renumbered (h : s.Renumbers f s') (expression : String) :
    compile (s'.grammar PointRule.join) expression =
        (compile (s.grammar PointRule.join) expression).map (Tree.reweigh f) ∧
      (compile (s'.grammar PointRule.join) expression).map toString =
        (compile (s.grammar PointRule.join) expression).map toString := by
  have hcompile := (h.reweighs PointRule.join).compile_eq expression
  refine ⟨hcompile, ?_⟩
  rw [hcompile]
  cases compile (s.grammar PointRule.join) expression with
  | error e => rfl
  | ok t => exact congrArg Except.ok t.toString_reweigh

/-- The usual operators from the lightest to the heaviest, with small weights. -/
theorem compile_renumbered_reordered :
    let f : UInt32 → UInt32 := fun w => if w = 30 then 7 else if w = 20 then 4 else 1
    let s : Settings := {}
    let s' : Settings := { decimal := some ⟨".", 7⟩, operators := [⟨"or", 1⟩, ⟨"and", 1⟩, ⟨"=", 4⟩] }
    let half : Operand := .literal "0.5" (.decimal ⟨false, 5, 1, by decide, by decide⟩)
    let t : Tree PointRule :=
      .node ⟨"or", 10, .binary⟩ (.node ⟨"=", 20, .binary⟩ (.leaf (.field "a")) (.leaf half))
        (.leaf (.field "b"))
    s.Renumbers f s' ∧ compile (s.grammar PointRule.join) "{a} = 0.5 or {b}" = .ok t ∧
      compile (s'.grammar PointRule.join) "{a} = 0.5 or {b}" = .ok (t.reweigh f) ∧
      compile (s'.grammar PointRule.join) "{a} {b}" = .error (.strayOperand "{b}") := by
  intro f s s' half t
  have hincreasing : Increasing f s.weights := by
    have hweights : s.weights = [30, 20, 10, 10] := rfl
    rw [hweights]
    simp [Increasing, f]
  have hrenumbers : s.Renumbers f s' := by
    constructor
    · rfl
    · rfl
    · decide
    · decide +kernel
    · decide +kernel
    · exact hincreasing
  have hcompiled : compile (s.grammar PointRule.join) "{a} = 0.5 or {b}" = .ok t := by decide +kernel
  have hrefused : compile (s.grammar PointRule.join) "{a} {b}" = .error (.strayOperand "{b}") := by
    decide +kernel
  refine ⟨hrenumbers, hcompiled, ?_, ?_⟩
  · rw [(compile_renumbered hrenumbers _).1, hcompiled]
    rfl
  · rw [(compile_renumbered hrenumbers _).1, hrefused]
    rfl

end Renumbers

end Settings

end FilterLang
