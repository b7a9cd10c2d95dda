import FilterLang.Json.Number
import FilterLang.Json.StringText
import FilterLang.Keyed

/-!
# JSON values

A value in memory and its compact text.  The entries of an object stand in the order in which they
are written; values that are read have them in ascending order of the keys.
-/

namespace FilterLang

/-- A JSON value. -/
inductive Json where
  | null
  | boolean (value : Bool)
  | number (value : Json.Number)
  | string (value : String)
  | list (items : List Json)
  | object (entries : List (String × Json))

namespace Json

/-- The truth values as they are written. -/
def booleanChars (value : Bool) : List Char :=
  if value then ['t', 'r', 'u', 'e'] else ['f', 'a', 'l', 's', 'e']

mutual

/-- The text of a value, without blanks. -/
def toChars : Json → List Char
  | null => ['n', 'u', 'l', 'l']
  | boolean value => booleanChars value
  | number value => value.toChars
  | string value => quoted value.toList
  | list items => '[' :: (itemsChars items ++ [']'])
  | object entries => '{' :: (entriesChars entries ++ ['}'])

/-- Items with commas between them. -/
def itemsChars : List Json → List Char
  | [] => []
  | [v] => v.toChars
  | v :: rest => v.toChars ++ ',' :: itemsChars rest

/-- Entries with commas between them. -/
def entriesChars : List (String × Json) → List Char
  | [] => []
  | [(k, v)] => quoted k.toList ++ ':' :: v.toChars
  | (k, v) :: rest => quoted k.toList ++ ':' :: (v.toChars ++ ',' :: entriesChars rest)

end

instance : ToString Json where
  toString v := String.ofList v.toChars

/-- The value under a key, if there is an object with the key. -/
def field? (key : String) : Json → Option Json
  | object entries => Keyed.findValue? key entries
  | _ => none

end Json

end FilterLang
