import Ribbon.Command.Run

/-!
# The program

Reads the file that the arguments name, does what they ask for and prints the outcome.
-/

set_option relaxedAutoImplicit false
set_option autoImplicit false

namespace Ribbon

/-- The bytes of a file, if there is one. -/
def readFile? (path : String) : IO (Option ByteArray) := do
  try return some (← IO.FS.readBinFile path) catch _ => return none

/-- The file that a request names. -/
def requestedFile (request : Command.Request) : IO (Option ByteArray) :=
  match request with
  | .draw ⟨some path, _⟩ => readFile? path
  | _ => return none

end Ribbon

/-- Runs the program. -/
def main (args : List String) : IO UInt32 := do
  let request := Ribbon.Command.Request.ofArguments args
  let file ← Ribbon.requestedFile request
  let filter := Ribbon.Log.Filter.ofEnvironment (← IO.getEnv "RUST_LOG")
  let outcome := Ribbon.Command.outcome request file filter
  for line in outcome.lines do
    IO.println line
  if let some e := outcome.failure then
    IO.eprintln ("Error: " ++ e.message)
  if outcome.exitCode == 2 then
    IO.eprintln Ribbon.Command.usageLine
  return outcome.exitCode.toUInt32
