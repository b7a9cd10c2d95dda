import FilterLang.Grammar.Basic

/-!
# Settings of a grammar

The grammars of the language differ in a few settings: the quote, whether truth values can be
written, the token that makes decimals, and the operators.
-/

namespace FilterLang

/-- An operator as the settings give it. -/
structure OperatorSetting where
  token : String
  weight : UInt32
deriving DecidableEq

/-- What can be chosen about a grammar; the defaults are the language as it is usually written. -/
structure Settings where
  /-- The character around strings -/
  quote : Char := '\''
  /-- Whether `true` and `false` are constants -/
  booleans : Bool := true
  /-- The operator that joins two integers to a decimal, if there is one -/
  decimal : Option OperatorSetting := some ⟨".", 30⟩
  /-- The operators that stay in the tree -/
  operators : List OperatorSetting := [⟨"=", 20⟩, ⟨"and", 10⟩, ⟨"or", 10⟩]
deriving DecidableEq

variable {ρ : Type}

/-- The operator that stays in the tree. -/
def OperatorSetting.binary (s : OperatorSetting) : Operator ρ :=
  ⟨s.token, s.weight, .binary⟩

/-- The operator that reduces its operands by the rules. -/
def OperatorSetting.transform (s : OperatorSetting) (rules : List ρ) : Operator ρ :=
  ⟨s.token, s.weight, .transform rules⟩

/-- The grammar with these settings, in which `point` is the rule that makes decimals.  Constants and
the decimal operator decide first, then fields, strings and the other operators. -/
def Settings.grammar (s : Settings) (point : ρ) : Grammar ρ where
  patterns :=
    [.integer] ++
    (if s.booleans then [.boolean] else []) ++
    (s.decimal.map fun d => Pattern.operator (d.transform [point])).toList ++
    [.field, .string s.quote] ++
    s.operators.map fun o => Pattern.operator o.binary

end FilterLang
