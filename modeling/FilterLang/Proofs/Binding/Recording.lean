import FilterLang.Proofs.Binding.Evaluation

/-!
# The calls that binding makes

A store is asked for locations and for the predicates that operators make.  `Locate.recorded` and
`Vocabulary.recorded` turn any store into one that writes every such call into a log, before the call
is made and whether or not it succeeds.  Recording changes no answer (`Tree.mirrors_evaluate`).

Main statement: the walk with a stack and the evaluator agree on the result and on the whole log
(`Tree.bind_refines_predicateOf`).
-/

namespace FilterLang

variable {m : Type → Type} [Monad m] {π φ ρ : Type}

/-! ## Logs -/

/-- A call to the store. -/
inductive Call (π φ : Type) where
  /-- A field was to be located -/
  | locate (name : String)
  /-- The meaning of an operator was applied to its operands -/
  | apply (token : String) (left right : Bound π φ)
deriving DecidableEq

/-- A computation of the store that can write to a log. -/
abbrev Recorded (m : Type → Type) (π φ : Type) :=
  StateT (List (Call π φ)) m

/-- Writes the call at the end of the log and makes it then. -/
def Call.before {α : Type} (call : Call π φ) (x : ExceptT ExprError m α) :
    ExceptT ExprError (Recorded m π φ) α :=
  ExceptT.mk fun log => do return (← x.run, log ++ [call])

/-- The store's locations, recorded. -/
def Locate.recorded (locate : Locate m π) : Locate (Recorded m π φ) π := fun name =>
  (Call.locate name).before (locate name)

/-- The meanings of the operators, recorded under their tokens. -/
def Vocabulary.recorded (vocabulary : Vocabulary m π φ) : Vocabulary (Recorded m π φ) π φ :=
  vocabulary.mapEntries fun token meaning l r => (Call.apply token l r).before (meaning l r)

/-! ## Recording is transparent -/

/-- The first computation is the second one with a log beside it. -/
def Mirrors {α ε : Type} (x : ExceptT ε (Recorded m π φ) α) (y : ExceptT ε m α) : Prop :=
  ∀ log, Prod.fst <$> x.run.run log = y.run

namespace Mirrors

variable [LawfulMonad m] {α β ε : Type}

theorem pure (a : α) :
    Mirrors (m := m) (Pure.pure a : ExceptT ε (Recorded m π φ) α) (Pure.pure a) := by
  intro log
  simp

theorem throw (e : ε) :
    Mirrors (m := m) (MonadExcept.throw e : ExceptT ε (Recorded m π φ) α) (MonadExcept.throw e) := by
  intro log
  simp

/-- After a failure nothing is done. -/
theorem throw_bind {α' : Type} (e : ε) (f : α → ExceptT ε (Recorded m π φ) β)
    (g : α' → ExceptT ε m β) :
    Mirrors ((MonadExcept.throw e : ExceptT ε (Recorded m π φ) α) >>= f)
      ((MonadExcept.throw e : ExceptT ε m α') >>= g) := by
  intro log
  simp

theorem bind {x : ExceptT ε (Recorded m π φ) α} {y : ExceptT ε m α} (hx : Mirrors x y)
    {f : α → ExceptT ε (Recorded m π φ) β} {g : α → ExceptT ε m β} (hf : ∀ a, Mirrors (f a) (g a)) :
    Mirrors (x >>= f) (y >>= g) := by
  intro log
  simp only [ExceptT.run_bind, StateT.run_bind, map_bind]
  rw [← hx log, bind_map_left]
  congr 1
  funext p
  obtain ⟨r, log'⟩ := p
  cases r with
  | ok a => exact hf a log'
  | error e => simp

theorem before (call : Call π φ) (x : ExceptT ExprError m α) : Mirrors (call.before x) x := by
  intro log
  simp [Call.before, StateT.run]

theorem ask {x : ExceptT ExprError (Recorded m π φ) α} {y : ExceptT ExprError m α}
    (h : Mirrors x y) : Mirrors (FilterLang.ask x) (FilterLang.ask y) := by
  intro log
  simp only [FilterLang.ask, ExceptT.run_adapt, StateT.run_map]
  rw [← h log, Functor.map_map, Functor.map_map]

end Mirrors

namespace Tree

variable [LawfulMonad m] (locate : Locate m π) (vocabulary : Vocabulary m π φ)

omit [LawfulMonad m] in
/-- An operator passes the same checks, and its meaning is recorded. -/
theorem check_recorded (op : Operator ρ) (left right : Tree ρ) :
    check vocabulary.recorded op left right =
      (check vocabulary op left right).map fun meaning l r =>
        (Call.apply op.token l r).before (meaning l r) := by
  have hget : vocabulary.recorded.get? op.token = (vocabulary.get? op.token).map fun meaning l r =>
      (Call.apply op.token l r).before (meaning l r) :=
    Keyed.get?_mapEntries _ vocabulary op.token
  unfold check
  rw [hget]
  cases op.kind with
  | transform rules => rfl
  | binary =>
    cases vocabulary.get? op.token with
    | none => rfl
    | some meaning =>
      cases left.isHole with
      | true => rfl
      | false => cases right.isHole <;> rfl

/-- Without its log, the evaluation on a store that records is the evaluation on the store. -/
theorem mirrors_evaluate (t : Tree ρ) :
    Mirrors (evaluate locate.recorded vocabulary.recorded t) (evaluate locate vocabulary t) := by
  induction t with
  | hole => exact .throw _
  | leaf x =>
    cases x with
    | literal text value => exact .pure _
    | field reference =>
      refine .bind (.before _ _) ?_
      intro path
      exact .pure _
  | node op left right ihleft ihright =>
    -- the checks are the same; then come the two sides and the call of the meaning
    rw [evaluate, evaluate, check_recorded]
    cases check vocabulary op left right with
    | error e => exact .throw_bind e _ _
    | ok meaning =>
      simp only [Except.map, MonadExcept.ofExcept, pure_bind]
      refine .bind ihleft fun l => .bind ihright fun r => .bind (.before _ _) ?_
      intro predicate
      exact .pure _

theorem mirrors_predicateOf (t : Tree ρ) :
    Mirrors (predicateOf locate.recorded vocabulary.recorded t) (predicateOf locate vocabulary t) := by
  refine .bind (mirrors_evaluate locate vocabulary t) ?_
  intro value
  cases value with
  | literal value => exact .throw _
  | location path => exact .throw _
  | predicate predicate => exact .pure _

/-- The walk with a stack refines the evaluator.  From any stack it pushes the value of the tree and
nothing else, unless it is refused; the predicate of the whole tree is the same; so is the log of the
calls, whether binding succeeds or not; and the log is one of the calls that binding really makes,
since without it the answer is that of the store itself.  A walk stops only where the expression is
refused, so the stack is neither empty too early nor left with operands in the end. -/
theorem bind_refines_predicateOf (t : Tree ρ) :
    (∀ stack, t.walk locate vocabulary stack =
        (fun value => value :: stack) <$> ask (t.evaluate locate vocabulary)) ∧
      t.bind locate vocabulary = ask (t.predicateOf locate vocabulary) ∧
      (∀ log, (t.bind locate.recorded vocabulary.recorded).run.run log =
        (fun answer => (answer.1.mapError Halt.refused, answer.2)) <$>
          (t.predicateOf locate.recorded vocabulary.recorded).run.run log) ∧
      (∀ log, Prod.fst <$> (t.bind locate.recorded vocabulary.recorded).run.run log =
        (t.bind locate vocabulary).run) := by
  have hbind : ∀ {n : Type → Type} [Monad n] [LawfulMonad n] (l : Locate n π)
      (v : Vocabulary n π φ), t.bind l v = ask (t.predicateOf l v) := by
    intro n _ _ l v
    exact bind_eq_predicateOf t
  refine ⟨?_, hbind _ _, ?_, ?_⟩
  · intro stack
    exact walk_eq_evaluate t stack
  · intro log
    rw [hbind]
    simp [ask, ExceptT.run_adapt]
  · rw [hbind, hbind]
    exact (mirrors_predicateOf locate vocabulary t).ask

/-- `({a} = 1) = {b}` on a store without the field `b`: the left side is located and its meaning
applied before the right side is looked at, and nothing is applied after it has failed. -/
theorem bind_refines_predicateOf_unknownField :
    let locate : Locate Id Nat := fun name =>
      if name = "a" then pure 0 else throw (.unknownField name)
    let equal : Meaning Id Nat Bool := fun _ _ => pure true
    let vocabulary : Vocabulary Id Nat Bool := Keyed.ofList [("=", equal)]
    let op : Operator Empty := ⟨"=", 20, .binary⟩
    let tree : Tree Empty :=
      node op (node op (leaf (.field "a")) (leaf (.literal "1" (.integer 1)))) (leaf (.field "b"))
    (tree.bind locate.recorded vocabulary.recorded).run.run [] =
      (.error (.refused (.unknownField "b")),
        [.locate "a", .apply "=" (.location 0) (.literal (.integer 1)), .locate "b"]) := by
  intro locate equal vocabulary op tree
  have hlog := (bind_refines_predicateOf locate vocabulary tree).2.2.1 []
  exact hlog.trans (by rfl)

end Tree

end FilterLang
