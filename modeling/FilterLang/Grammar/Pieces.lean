import FilterLang.Text.Blank

/-!
# The pieces of a text

A text is cut into pieces for a test that says which texts can be read.  A piece ends where it can be
read but could not with the next character added; blanks in front of a piece belong to none.  What
is left at the end of the text is a piece too, whether it can be read or not.
-/

namespace FilterLang

open Text

/-- A piece begins with any character but a blank. -/
def opening (c : Char) : List Char :=
  if isBlank c then [] else [c]

/-- The pieces of a text, the first of which has begun with the characters held. -/
def pieces (accepts : List Char → Bool) (held : List Char) : List Char → List (List Char)
  | [] => if held.isEmpty then [] else [held]
  | c :: rest =>
    if held.isEmpty then pieces accepts (opening c) rest
    else if accepts held && !accepts (held ++ [c]) then held :: pieces accepts (opening c) rest
    else pieces accepts (held ++ [c]) rest

end FilterLang
