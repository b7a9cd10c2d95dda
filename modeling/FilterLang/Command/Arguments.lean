/-!
# Command line arguments

A command line holds one expression and may name a dataset and a grammar.  Options can stand anywhere;
short ones may be joined, and the last of a joined group may have its value attached.  Behind `--`
everything is an expression, whatever it begins with.  The arguments are taken in from left to right,
and the first that is wrong, or that asks for help or for the version, ends the reading.
-/

namespace FilterLang.Command

/-- What a command line asks for. -/
structure Request where
  expression : String
  /-- The file with the dataset -/
  data : Option String := none
  /-- The file with the settings of the grammar -/
  grammar : Option String := none
  /-- Whether to stop after the tree -/
  treeOnly : Bool := false
  debug : Bool := false
deriving DecidableEq

/-- Why a command line cannot be understood. -/
inductive UsageError where
  | unknownOption (option : String)
  | repeatedOption (option : String)
  | missingValue (option : String)
  | unexpectedValue (option : String)
  | unexpectedArgument (argument : String)
  | missingExpression
deriving DecidableEq

/-- The message for a command line that is not understood. -/
def UsageError.message : UsageError → String
  | unknownOption option => "unexpected argument '" ++ option ++ "' found"
  | repeatedOption option => "the argument '" ++ option ++ "' cannot be used multiple times"
  | missingValue option => "a value is required for '" ++ option ++ "' but none was supplied"
  | unexpectedValue option => "no value is allowed for '" ++ option ++ "'"
  | unexpectedArgument argument => "unexpected argument '" ++ argument ++ "' found"
  | missingExpression => "the following required arguments were not provided: <EXPRESSION>"

/-- Why the reading of a command line ends before there is a request. -/
inductive Interrupt where
  | misuse (error : UsageError)
  | help
  | version
deriving DecidableEq

/-- A command line read in part. -/
structure Draft where
  expression : Option String := none
  data : Option String := none
  grammar : Option String := none
  treeOnly : Bool := false
  debug : Bool := false

/-- The options of the command line. -/
inductive Opt where
  | data
  | grammar
  | tree
  | debug
  | help
  | version
deriving DecidableEq

namespace Opt

/-- The option of a long name. -/
def ofLong? : String → Option Opt
  | "data" => some data
  | "grammar" => some grammar
  | "tree" => some tree
  | "debug" => some debug
  | "help" => some help
  | "version" => some version
  | _ => none

/-- The option of a letter. -/
def ofLetter? : Char → Option Opt
  | 'D' => some data
  | 'g' => some grammar
  | 't' => some tree
  | 'd' => some debug
  | 'h' => some help
  | 'V' => some version
  | _ => none

/-- How messages name the option. -/
def name : Opt → String
  | data => "--data"
  | grammar => "--grammar"
  | tree => "--tree"
  | debug => "--debug"
  | help => "--help"
  | version => "--version"

/-- Whether the option names a file. -/
def takesFile : Opt → Bool
  | data => true
  | grammar => true
  | _ => false

end Opt

namespace Draft

/-! ## Taking in one item -/

/-- Ends the reading with a mistake. -/
def misuse {α : Type} (e : UsageError) : Except Interrupt α :=
  .error (.misuse e)

/-- Takes in the expression, of which there is one. -/
def withExpression (d : Draft) (text : String) : Except Interrupt Draft :=
  if d.expression.isSome then misuse (.unexpectedArgument text)
  else .ok { d with expression := some text }

/-- Takes in an option without a value, at most once. -/
def withFlag (d : Draft) (o : Opt) : Except Interrupt Draft :=
  match o with
  | .tree => if d.treeOnly then misuse (.repeatedOption o.name) else .ok { d with treeOnly := true }
  | .debug => if d.debug then misuse (.repeatedOption o.name) else .ok { d with debug := true }
  | .help => .error .help
  | .version => .error .version
  | _ => misuse (.missingValue o.name)

/-- Takes in an option with a file, at most once; the name of a file is not empty. -/
def withFile (d : Draft) (o : Opt) (file : String) : Except Interrupt Draft :=
  if file = "" then misuse (.missingValue o.name)
  else
    match o with
    | .data =>
      if d.data.isSome then misuse (.repeatedOption o.name) else .ok { d with data := some file }
    | .grammar =>
      if d.grammar.isSome then misuse (.repeatedOption o.name)
      else .ok { d with grammar := some file }
    | _ => misuse (.unexpectedValue o.name)

/-- The request, if there is an expression. -/
def finish (d : Draft) : Except Interrupt Request :=
  match d.expression with
  | none => misuse .missingExpression
  | some expression =>
    .ok { expression, data := d.data, grammar := d.grammar, treeOnly := d.treeOnly, debug := d.debug }

/-! ## Taking in the arguments -/

/-- What an argument leaves: a draft, and the option that still waits for its file. -/
abbrev Step := Except Interrupt (Draft × Option Opt)

/-- Takes in a long option, with its value if there is an equals sign. -/
def withLong (d : Draft) (body : List Char) : Step :=
  let name := String.ofList (body.takeWhile (· ≠ '='))
  match Opt.ofLong? name, body.dropWhile (· ≠ '=') with
  | none, _ => misuse (.unknownOption ("--" ++ name))
  | some o, [] => if o.takesFile then .ok (d, some o) else (d.withFlag o).map (·, none)
  | some o, _ :: value => (d.withFile o (String.ofList value)).map (·, none)

/-- Takes in a group of letters; behind the letter of an option with a file the rest is its name, and
an equals sign in between does not count. -/
def withLetters (d : Draft) : List Char → Step
  | [] => .ok (d, none)
  | c :: rest =>
    match Opt.ofLetter? c with
    | none => misuse (.unknownOption (String.ofList ['-', c]))
    | some o =>
      if o.takesFile then
        match rest with
        | [] => .ok (d, some o)
        | '=' :: value => (d.withFile o (String.ofList value)).map (·, none)
        | value => (d.withFile o (String.ofList value)).map (·, none)
      else
        match d.withFlag o with
        | .ok d => d.withLetters rest
        | .error e => .error e

/-- Takes in one argument in front of `--`. -/
def withArgument (d : Draft) (argument : String) : Step :=
  match argument.toList with
  | '-' :: '-' :: body => d.withLong body
  | '-' :: c :: letters => d.withLetters (c :: letters)
  | _ => (d.withExpression argument).map (·, none)

/-- Takes in all arguments.  A file is awaited behind its option and cannot begin with a hyphen, except
that it may be a hyphen alone. -/
def withArguments (d : Draft) : Option Opt → List String → Except Interrupt Draft
  | none, [] => .ok d
  | some o, [] => misuse (.missingValue o.name)
  | none, argument :: rest =>
    if argument = "--" then rest.foldlM withExpression d
    else
      match d.withArgument argument with
      | .ok (d, awaited) => d.withArguments awaited rest
      | .error e => .error e
  | some o, file :: rest =>
    if file.toList.head? = some '-' ∧ file ≠ "-" then misuse (.missingValue o.name)
    else
      match d.withFile o file with
      | .ok d => d.withArguments none rest
      | .error e => .error e

end Draft

/-- The request that a command line makes. -/
def Request.ofArguments (arguments : List String) : Except Interrupt Request := do
  (← ({} : Draft).withArguments none arguments).finish

end FilterLang.Command
