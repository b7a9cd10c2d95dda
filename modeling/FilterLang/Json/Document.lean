import FilterLang.Json.Basic

/-!
# JSON text

A `Document` is a JSON text with everything kept that the text says: the order of entries, keys that
occur twice, the digits of numbers.  Reading it (`Document.ofText?`) checks the grammar and nothing
else, because how much of the rest has to be sound depends on who asks: `Document.json?` wants
numbers in range and whole characters.
-/

namespace FilterLang.Json

/-- A JSON text taken apart; a string is missing if a half of one of its characters stands alone. -/
inductive Document where
  | null
  | boolean (value : Bool)
  | numeral (value : Numeral)
  | string (value : Option String)
  | list (items : List Document)
  | object (entries : List (Option String × Document))

namespace Document

/-! ## Reading -/

/-- The blanks of JSON. -/
def isSpace (c : Char) : Bool :=
  c == ' ' || c == '\n' || c == '\t' || c == '\r'

/-- The text without the blanks in front. -/
def skipSpace (cs : List Char) : List Char :=
  cs.dropWhile isSpace

/-- The text behind a word it begins with. -/
def takeWord? : List Char → List Char → Option (List Char)
  | [], cs => some cs
  | _ :: _, [] => none
  | w :: word, c :: cs => if w = c then takeWord? word cs else none

/-- A string behind its opening quote. -/
def takeString? (cs : List Char) : Option (Option String × List Char) := do
  let (parts, rest) ← takeParts? cs
  return ((joinParts? parts).map String.ofList, rest)

mutual

/-- Reads a value and gives the text behind it.  The fuel bounds the nesting together with the number
of items, and twice the length of the text is always enough. -/
def takeValue? : Nat → List Char → Option (Document × List Char)
  | 0, _ => none
  | fuel + 1, cs =>
    match skipSpace cs with
    | [] => none
    | c :: rest =>
      if c = 'n' then (takeWord? ['u', 'l', 'l'] rest).map (.null, ·)
      else if c = 't' then (takeWord? ['r', 'u', 'e'] rest).map (.boolean true, ·)
      else if c = 'f' then (takeWord? ['a', 'l', 's', 'e'] rest).map (.boolean false, ·)
      else if c = '"' then (takeString? rest).map fun (s, rest) => (.string s, rest)
      else if c = '[' then
        match takeChar ']' (skipSpace rest) with
        | (true, rest) => some (.list [], rest)
        | (false, rest) => (takeItems? fuel rest).map fun (items, rest) => (.list items, rest)
      else if c = '{' then
        match takeChar '}' (skipSpace rest) with
        | (true, rest) => some (.object [], rest)
        | (false, rest) => (takeEntries? fuel rest).map fun (entries, rest) => (.object entries, rest)
      else (Numeral.take? (c :: rest)).map fun (n, rest) => (.numeral n, rest)

/-- Reads the items of a list up to its end; there is at least one. -/
def takeItems? : Nat → List Char → Option (List Document × List Char)
  | 0, _ => none
  | fuel + 1, cs => do
    let (item, rest) ← takeValue? fuel cs
    match skipSpace rest with
    | ',' :: rest =>
      let (items, rest) ← takeItems? fuel rest
      return (item :: items, rest)
    | ']' :: rest => return ([item], rest)
    | _ => none

/-- Reads the entries of an object up to its end; there is at least one. -/
def takeEntries? : Nat → List Char → Option (List (Option String × Document) × List Char)
  | 0, _ => none
  | fuel + 1, cs =>
    match skipSpace cs with
    | '"' :: rest => do
      let (key, rest) ← takeString? rest
      match skipSpace rest with
      | ':' :: rest =>
        let (value, rest) ← takeValue? fuel rest
        match skipSpace rest with
        | ',' :: rest =>
          let (entries, rest) ← takeEntries? fuel rest
          return ((key, value) :: entries, rest)
        | '}' :: rest => return ([(key, value)], rest)
        | _ => none
      | _ => none
    | _ => none

end

/-- Reads a whole text. -/
def ofText? (text : String) : Option Document := do
  let cs := text.toList
  let (d, rest) ← takeValue? (2 * cs.length + 2) cs
  if (skipSpace rest).isEmpty then some d else none

/-! ## Nesting -/

mutual

/-- How many lists and objects stand one in the other. -/
def depth : Document → Nat
  | list items => 1 + itemsDepth items
  | object entries => 1 + entriesDepth entries
  | _ => 0

/-- The largest depth among the items. -/
def itemsDepth : List Document → Nat
  | [] => 0
  | d :: rest => max d.depth (itemsDepth rest)

/-- The largest depth among the entries. -/
def entriesDepth : List (Option String × Document) → Nat
  | [] => 0
  | (_, d) :: rest => max d.depth (entriesDepth rest)

end

/-! ## Values -/

mutual

/-- The value of a document, if its numbers are in range and its strings hold whole characters.  Of
entries with the same key the last one counts. -/
def json? : Document → Option Json
  | null => some .null
  | boolean value => some (.boolean value)
  | numeral value => value.number?.map .number
  | string value => value.map .string
  | list items => (items? items).map .list
  | object entries => (entries? entries).map fun es => .object (Keyed.ofList es).entries

/-- The values of the items. -/
def items? : List Document → Option (List Json)
  | [] => some []
  | d :: rest => do return (← d.json?) :: (← items? rest)

/-- The values of the entries. -/
def entries? : List (Option String × Document) → Option (List (String × Json))
  | [] => some []
  | (key, d) :: rest => do return (← key, ← d.json?) :: (← entries? rest)

end

end Document

end FilterLang.Json
