import FilterLang.Command.Run

/-!
# The program

Runs the command line against the file system.
-/

namespace FilterLang

/-- Reads a file of the file system. -/
def readFromDisk : Command.Files IO := fun path => do
  match ← (IO.FS.readBinFile path).toBaseIO with
  | .ok bytes => return .ok bytes
  | .error e => return .error (toString e)

end FilterLang

/-- Prints the output of the run and then, if it failed, why. -/
def main (arguments : List String) : IO UInt32 := do
  let outcome ← FilterLang.Command.run FilterLang.readFromDisk arguments
  for line in outcome.output do
    IO.println line
  if let some complaint := outcome.complaint then
    IO.eprintln complaint
  return outcome.exitCode
