import FilterLang.Expr.DecimalPoint
import FilterLang.Expr.Merge
import FilterLang.Grammar.Pieces
import FilterLang.Grammar.Settings

/-!
# From text to tree

The pieces of a text are read one by one, and each unit read is merged into the tree at once, so the
first piece that cannot be read or merged decides how the expression is refused.
-/

namespace FilterLang

/-- The most operators an expression may hold. -/
def maxOperators : Nat := 256

variable {ρ : Type}

/-- An expression read in part: its tree and the number of operators met. -/
structure Progress (ρ : Type) where
  tree : Tree ρ := .hole
  operators : Nat := 0

variable [Reducer ρ]

/-- Takes in the next unit.  An operator too many is refused before it is merged. -/
def Progress.add (p : Progress ρ) (u : Lexeme ρ) : Except ExprError (Progress ρ) :=
  let operators := p.operators + (if u.isOperator then 1 else 0)
  if maxOperators < operators then .error (.tooManyOperators maxOperators)
  else do return ⟨← p.tree.add u, operators⟩

/-- Takes in the next piece of the text. -/
def Progress.read (g : Grammar ρ) (p : Progress ρ) (piece : List Char) :
    Except ExprError (Progress ρ) :=
  match g.read? piece with
  | none => .error (.unmatched (String.ofList piece))
  | some (.error e) => .error e
  | some (.ok u) => p.add u

/-- The tree of an expression. -/
def compile (g : Grammar ρ) (expression : String) : Except ExprError (Tree ρ) := do
  let p ← (pieces g.accepts [] expression.toList).foldlM (Progress.read g) {}
  if p.tree.isHole then .error .empty else .ok p.tree

/-- The language as it is usually written. -/
def Grammar.standard : Grammar PointRule :=
  ({} : Settings).grammar .join

end FilterLang
