import FilterLang.Text.Hidden

/-!
# Text for inspection

When a string is shown for inspection, it stands in quotes and whatever a reader could not see on its
own is escaped.
-/

namespace FilterLang.Text

/-- A character as inspection shows it inside a string; one that does not show is given by its number
in hexadecimal. -/
def inspectChar (c : Char) : List Char :=
  if c = '"' then ['\\', '"']
  else if c = '\\' then ['\\', '\\']
  else if c = '\n' then ['\\', 'n']
  else if c = '\r' then ['\\', 'r']
  else if c = '\t' then ['\\', 't']
  else if c = '\x00' then ['\\', '0']
  else if isHidden c then '\\' :: 'u' :: '{' :: (Nat.toDigits 16 c.toNat ++ ['}'])
  else [c]

/-- A string as inspection shows it. -/
def inspect (s : String) : String :=
  "\"" ++ String.ofList (s.toList.flatMap inspectChar) ++ "\""

end FilterLang.Text
