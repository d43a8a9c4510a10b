import LedgerAudit.CommandLine.Arguments
import LedgerAudit.CommandLine.Report

/-!
# Runs

A run of the program is a function of its arguments and of the files it finds. Files are read in a
fixed order, and the first that cannot be used ends the run.
-/

namespace LedgerAudit.CommandLine

inductive FileFault
  | unreadableReceipt (path : String)
  | unreadable (path : String)
  | notJson (path : String)
deriving DecidableEq, Repr

def FileFault.message : FileFault → String
  | .unreadableReceipt path => s!"Error: Failed to read receipt {path}"
  | .unreadable path => s!"Error: Failed to read {path}"
  | .notJson path => s!"Error: {path} is not valid JSON"

inductive Ending
  | stopped (why : Stop)
  | fileFault (fault : FileFault)
  | verdict (events : List Event) (verdict : Except Rejection Verified)

abbrev Files := (path : String) → Option Bytes

namespace Files

def text? (files : Files) (path : String) : Option String := do Bytes.toText? (← files path)

def readJson (files : Files) (path : String) : Except FileFault Json :=
  match files.text? path with
  | none => .error (.unreadable path)
  | some text =>
    match Json.parse text with
    | .ok v => .ok v
    | .error _ => .error (.notJson path)

def readReceipt (files : Files) (path : String) : Except FileFault String :=
  match files.text? path with
  | some text => .ok text
  | none => .error (.unreadableReceipt path)

def readCert (files : Files) : (path : Option String) → Except FileFault (Option Bytes)
  | none => .ok none
  | some path =>
    match files path with
    | some bytes => .ok (some bytes)
    | none => .error (.unreadable path)

end Files

def checkFiles (files : Files) (a : Arguments) : Except FileFault (Traced Verified) := do
  let receipt ← files.readReceipt a.receipt
  let request ← files.readJson a.request
  let response ← files.readJson a.response
  let serviceCert ← files.readCert a.serviceCert
  return Audit.checkTraced receipt a.kind request response serviceCert

def run (files : Files) (args : List String) : Ending :=
  match Arguments.parse args with
  | .error why => .stopped why
  | .ok a =>
    match checkFiles files a with
    | .error fault => .fileFault fault
    | .ok checked => .verdict checked.events checked.outcome

def versionText : String := "ledger-receipt-verify 0.1.0"

def argumentHelp : List (String × String) := [
  ("  <RECEIPT>", "Receipt JSON (GetReceiptResponse or bare receipt)")]

def optionHelp : List (String × String) := [
  ("      --kind <KIND>", "Operation the receipt should attest to: put, delete_range or txn"),
  ("      --request <REQUEST>", "Request body as protobuf JSON"),
  ("      --response <RESPONSE>", "Response body as protobuf JSON, as returned by the service"),
  ("      --service-cert <SERVICE_CERT>",
    "Service identity certificate (PEM). Without it any signing node is accepted"),
  ("  -h, --help", "Print help"),
  ("  -V, --version", "Print version")]

/-- Lines in two columns, the second two blanks after the widest entry of the first. Long lines are
not broken. -/
def columns (rows : List (String × String)) : List String :=
  let width := (rows.map fun row => row.1.length).foldl max 0 + 2
  rows.map fun (label, what) => label.pushn ' ' (width - label.length) ++ what

def usage : String :=
  "Usage: receipt-verify [OPTIONS] --kind <KIND> --request <REQUEST> --response <RESPONSE> "
    ++ "<RECEIPT>"

def helpText : String :=
  String.intercalate "\n"
    ([usage, "", "Arguments:"] ++ columns argumentHelp ++ ["", "Options:"] ++ columns optionHelp)

namespace Ending

/-- A wrong call is told apart from a rejection. -/
def exitCode : Ending → Nat
  | .stopped why => if why.isUsageError then 2 else 0
  | .fileFault _ => 1
  | .verdict _ (.ok _) => 0
  | .verdict _ (.error _) => 1

/-- What is printed, without its last line break. A wrong call prints nothing. -/
def output? : Ending → Option String
  | .stopped .help => some helpText
  | .stopped .version => some versionText
  | .stopped _ => none
  | .fileFault _ => some ""
  | .verdict _ v => some (report v)

/-- The line on the error stream that says why the run ended early. -/
def errorLine? : Ending → Option String
  | .fileFault fault => some (String.ofList (fault.message.toList.takeWhile (· ≠ '\n')))
  | _ => none

end Ending

end LedgerAudit.CommandLine
