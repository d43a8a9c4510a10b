import LedgerAudit.CommandLine.Run

/-!
# The program

Reads the files that the arguments name, prints the report and sets the exit code.
-/

namespace LedgerAudit.CommandLine

def readFiles (paths : List String) : IO Files := do
  let found ← paths.filterMapM fun (path : String) => do
    try
      let bytes ← IO.FS.readBinFile path
      return some (path, bytes.data.toList)
    catch _ => return none
  return fun path => found.lookup path

def pathsOf (args : List String) : List String :=
  match Arguments.parse args with
  | .ok a => [a.receipt, a.request, a.response] ++ a.serviceCert.toList
  | .error _ => []

def warnings : Ending → List Event
  | .verdict events _ => events.filter fun e => e.level == .warn
  | _ => []

end LedgerAudit.CommandLine

open LedgerAudit CommandLine in
def main (args : List String) : IO UInt32 := do
  let ending := run (← readFiles (pathsOf args)) args
  for e in warnings ending do
    IO.eprintln s!"{e.level.name} {e.message}"
  match ending.errorLine?, ending.output? with
  | some line, _ => IO.eprintln line
  | none, some text => IO.println text
  | none, none => IO.eprintln helpText
  return UInt32.ofNat ending.exitCode
