import FilterLang.Expr.Error
import FilterLang.Keyed

/-!
# What operators mean

To bind an expression is to give it a meaning in terms of some store of data: a field becomes a
location in the store, and an operator makes a predicate of its two operands.  `π` is the type of
locations and `φ` the type of predicates.  Both ways lead through a monad `m`, so that a store may
keep a log or have a state; each of them may refuse.
-/

namespace FilterLang

variable {m : Type → Type} {π φ : Type}

/-- What an operand is bound to. -/
inductive Bound (π φ : Type) where
  | literal (value : Literal)
  | location (path : π)
  | predicate (value : φ)
deriving DecidableEq

/-- The type of an operand once it is bound. -/
def Bound.type : Bound π φ → OperandType
  | literal value => value.type
  | location _ => .field
  | predicate _ => .predicate

/-- Where a store has a field, by its name. -/
abbrev Locate (m : Type → Type) (π : Type) :=
  String → ExceptT ExprError m π

/-- The meaning of an operator: the predicate made of its left and its right operand. -/
abbrev Meaning (m : Type → Type) (π φ : Type) :=
  Bound π φ → Bound π φ → ExceptT ExprError m φ

/-- The meanings of operators by their tokens. -/
abbrev Vocabulary (m : Type → Type) (π φ : Type) :=
  Keyed (Meaning m π φ)

/-- The three meanings a store has to offer for the usual operators. -/
structure Connectives (m : Type → Type) (π φ : Type) where
  equal : Meaning m π φ
  and : Meaning m π φ
  or : Meaning m π φ

/-- The usual operators. -/
def Vocabulary.standard (c : Connectives m π φ) : Vocabulary m π φ :=
  .ofList [("=", c.equal), ("and", c.and), ("or", c.or)]

end FilterLang
