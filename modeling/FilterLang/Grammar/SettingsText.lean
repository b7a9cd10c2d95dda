import FilterLang.Grammar.Settings
import FilterLang.Json.Document

/-!
# Settings in JSON

Settings are written as an object, and read from an object or from a list of the values in the same
order.  A setting that is left out keeps its default, but to leave out the decimal operator it has to
be written as `null`.  A key given twice or a value of the wrong type is refused; other keys are
ignored with whatever stands under them.
-/

namespace FilterLang

open Json (Document)

/-! ## Reading -/

/-- The value of an object under a key that must not occur twice. -/
def uniqueValue? (entries : List (String × Document)) (key : String) : Option (Option Document) :=
  match entries.filter fun e => e.1 = key with
  | [] => some none
  | [e] => some (some e.2)
  | _ => none

/-- Reads a value if it is there, and takes the default otherwise. -/
def readOr {α : Type} (default : α) (read? : Document → Option α) : Option Document → Option α
  | none => some default
  | some d => read? d

/-- The values of an object or a list under the keys given, those at the end of a list being optional
too.  A list may not be longer than there are keys. -/
def valuesUnder? (keys : List String) : Document → Option (List (Option Document))
  | .object entries => do
    let entries ← entries.mapM fun (key, value) => key.map (·, value)
    keys.mapM (uniqueValue? entries)
  | .list items =>
    if items.length ≤ keys.length then
      some (items.map some ++ List.replicate (keys.length - items.length) none)
    else none
  | _ => none

/-- A string. -/
def readText? : Document → Option String
  | .string text => text
  | _ => none

/-- A string of exactly one character. -/
def readChar? (d : Document) : Option Char := do
  match (← readText? d).toList with
  | [c] => some c
  | _ => none

/-- A truth value. -/
def readFlag? : Document → Option Bool
  | .boolean value => some value
  | _ => none

/-- A weight: an integer of 32 bits, written without point, exponent or sign. -/
def readWeight? : Document → Option UInt32
  | .numeral ⟨false, digits, [], none⟩ =>
    if digitsValue digits < Nat.pow 2 32 then some (UInt32.ofNat (digitsValue digits)) else none
  | _ => none

/-- An operator with its token and weight, neither of which can be left out. -/
def OperatorSetting.ofDocument? (d : Document) : Option OperatorSetting := do
  match ← valuesUnder? ["token", "weight"] d with
  | [some token, some weight] => return ⟨← readText? token, ← readWeight? weight⟩
  | _ => none

/-- An operator, or `null` for none. -/
def readDecimal? : Document → Option (Option OperatorSetting)
  | .null => some none
  | d => (OperatorSetting.ofDocument? d).map some

/-- A list of operators. -/
def readOperators? : Document → Option (List OperatorSetting)
  | .list items => items.mapM OperatorSetting.ofDocument?
  | _ => none

/-- The settings a document gives. -/
def Settings.ofDocument? (d : Document) : Option Settings := do
  let standard : Settings := {}
  match ← valuesUnder? ["quote", "booleans", "decimal", "operators"] d with
  | [quote, booleans, decimal, operators] =>
    return {
      quote := ← readOr standard.quote readChar? quote
      booleans := ← readOr standard.booleans readFlag? booleans
      decimal := ← readOr standard.decimal readDecimal? decimal
      operators := ← readOr standard.operators readOperators? operators }
  | _ => none

/-- The settings a text gives. -/
def Settings.ofText? (text : String) : Option Settings := do
  Settings.ofDocument? (← Document.ofText? text)

/-! ## Writing -/

/-- An operator as an object. -/
def OperatorSetting.json (s : OperatorSetting) : Json :=
  .object [("token", .string s.token), ("weight", .number (.integer s.weight.toNat))]

/-- The settings as an object in which nothing is left out. -/
def Settings.json (s : Settings) : Json :=
  .object [
    ("quote", .string (String.singleton s.quote)),
    ("booleans", .boolean s.booleans),
    ("decimal", (s.decimal.map OperatorSetting.json).getD .null),
    ("operators", .list (s.operators.map OperatorSetting.json))]

end FilterLang
