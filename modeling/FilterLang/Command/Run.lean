import FilterLang.Command.Arguments
import FilterLang.Compile
import FilterLang.Grammar.SettingsText
import FilterLang.Table.Binding
import FilterLang.Table.Dataset
import FilterLang.Text.Inspected

/-!
# Running a request

A request goes through fixed stages: the grammar is loaded, the expression compiled and its tree put
out; then the dataset is loaded, the tree bound to it, and the rows selected are put out.  The first
stage that fails ends the run, and no row is put out before all of them have succeeded.
-/

namespace FilterLang.Command

open Text (inspect)

/-- A failure with the chain of its causes. -/
structure Report where
  headline : String
  causes : List String := []
deriving DecidableEq

/-- A text whose lines, from the second on, are moved to the right. -/
def indented (margin : String) (text : String) : String :=
  String.ofList (text.toList.flatMap fun c => if c = '\n' then '\n' :: margin.toList else [c])

/-- The causes as they are listed: one cause alone, or more with numbers. -/
def Report.causeLines (r : Report) : List String :=
  match r.causes with
  | [] => []
  | [cause] => ["    " ++ indented "    " cause]
  | causes => causes.zipIdx.map fun (cause, i) => "    " ++ toString i ++ ": " ++ indented "       " cause

/-- The report as it is put out. -/
def Report.text (r : Report) : String :=
  "Error: " ++ r.headline ++
    (if r.causes.isEmpty then "" else "\n\nCaused by:\n" ++ "\n".intercalate r.causeLines)

/-- How a run ends. -/
inductive Outcome where
  /-- All was well -/
  | finished (output : List String)
  /-- A stage failed after the output -/
  | failed (output : List String) (report : Report)
  /-- The command line was not understood -/
  | misused (error : UsageError)
deriving DecidableEq

namespace Outcome

/-- The code the process ends with. -/
def exitCode : Outcome → UInt32
  | finished _ => 0
  | failed _ _ => 1
  | misused _ => 2

/-- What is put out, line by line. -/
def output : Outcome → List String
  | finished output => output
  | failed output _ => output
  | misused _ => []

/-- What is said about a failure. -/
def complaint : Outcome → Option String
  | finished _ => none
  | failed _ report => some report.text
  | misused error => some ("error: " ++ error.message)

end Outcome

/-! ## Files -/

variable {m : Type → Type} [Monad m]

/-- How files are read: the content, or the reason why there is none. -/
abbrev Files (m : Type → Type) := String → m (Except String ByteArray)

/-- Reads a file as text, or reports under the headline why not. -/
def readText (files : Files m) (headline path : String) : m (Except Report String) := do
  match ← files path with
  | .error reason => return .error ⟨headline ++ path, [reason]⟩
  | .ok bytes =>
    match String.fromUTF8? bytes with
    | some text => return .ok text
    | none => return .error ⟨headline ++ path, ["stream did not contain valid UTF-8"]⟩

/-- The settings in a file, or the usual ones without a file. -/
def loadSettings (files : Files m) : Option String → m (Except Report Settings)
  | none => return .ok {}
  | some path => do
    match ← readText files "Failed to read grammar file " path with
    | .error report => return .error report
    | .ok text =>
      match Settings.ofText? text with
      | some settings => return .ok settings
      | none => return .error ⟨"Invalid grammar file " ++ path, []⟩

/-- The table of the dataset in a file. -/
def loadTable (files : Files m) (path : String) : m (Except Report Table) := do
  match ← readText files "Failed to read dataset " path with
  | .error report => return .error report
  | .ok text =>
    match Dataset.ofText text with
    | .ok table => return .ok table
    | .error e => return .error ⟨"Invalid dataset " ++ path, e.messages⟩

/-! ## The stages -/

/-- The lines of the rows of a table that fulfil the condition. -/
def rowLines (t : Table) (c : Condition) : List String :=
  (t.select c).map fun row => toString (t.rowJson row)

/-- Selects from the dataset in a file, the tree having been put out already. -/
def selectFrom (files : Files m) (path : String) (tree : Tree PointRule) : m Outcome := do
  let shown := [toString tree]
  match ← loadTable files path with
  | .error report => return .failed shown report
  | .ok table =>
    match table.bind Table.vocabulary tree with
    | .error halt => return .failed shown ⟨"Failed to bind expression", [halt.message]⟩
    | .ok condition => return .finished (shown ++ rowLines table condition)

/-- Runs a request. -/
def Request.run (files : Files m) (r : Request) : m Outcome := do
  match ← loadSettings files r.grammar with
  | .error report => return .failed [] report
  | .ok settings =>
    match compile (settings.grammar PointRule.join) r.expression with
    | .error e => return .failed [] ⟨"Failed to compile " ++ inspect r.expression, [e.message]⟩
    | .ok tree =>
      if r.treeOnly then return .finished [toString tree]
      else
        match r.data with
        | none => return .finished [toString tree]
        | some path => selectFrom files path tree

/-- The name and version of the program. -/
def versionLine : String := "filterbind 0.1.0"

/-- What the command line can hold. -/
def helpLines : List String := [
  "Compile a filter expression and select the matching rows of a dataset",
  "",
  "Usage: filterbind [OPTIONS] <EXPRESSION>",
  "",
  "Arguments:",
  "  <EXPRESSION>  Filter expression, e.g. \"\x7btitle\x7d = 'x' and \x7bactive\x7d = true\"",
  "",
  "Options:",
  "  -D, --data <DATA>        JSON file holding an array of objects to filter",
  "  -g, --grammar <GRAMMAR>  JSON grammar configuration",
  "  -t, --tree               Only print the expression tree",
  "  -d, --debug              Enable debug logging",
  "  -h, --help               Print help",
  "  -V, --version            Print version"]

/-- Runs a command line. -/
def run (files : Files m) (arguments : List String) : m Outcome :=
  match Request.ofArguments arguments with
  | .error (.misuse e) => return .misused e
  | .error .help => return .finished helpLines
  | .error .version => return .finished [versionLine]
  | .ok r => r.run files

end FilterLang.Command
