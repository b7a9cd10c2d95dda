import FilterLang.Grammar.Pattern

/-!
# Grammars

A grammar is a list of patterns, of which the first that reads a text decides what the text is.
-/

namespace FilterLang

/-- The patterns of a language, the decisive ones first. -/
structure Grammar (ρ : Type) where
  patterns : List (Pattern ρ)
deriving DecidableEq

namespace Grammar

variable {ρ : Type}

/-- Reads a whole text by the first pattern that can. -/
def read? (g : Grammar ρ) (cs : List Char) : Option (Except ExprError (Lexeme ρ)) :=
  g.patterns.findSome? fun p => p.read? cs

/-- Whether some pattern reads the text, be it with an error. -/
def accepts (g : Grammar ρ) (cs : List Char) : Bool :=
  (g.read? cs).isSome

end Grammar

end FilterLang
