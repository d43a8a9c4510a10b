/-!
# Command line arguments

One positional argument names the receipt, and options name the other inputs. An option takes its
value after `=` or from the next argument; a value that has been started is settled when the next
option or positional argument begins.
-/

namespace LedgerAudit.CommandLine

structure Arguments where
  receipt : String
  kind : String
  request : String
  response : String
  serviceCert : Option String
deriving DecidableEq, Repr

/-- Why no arguments come of a command line; help and version are asked for and not faults. -/
inductive Stop
  | missingArgument
  | badValue
  | unknownArgument
  | conflict
  | unneededValue
  | help
  | version
deriving DecidableEq, Repr

def Stop.isUsageError : Stop → Bool
  | .help | .version => false
  | _ => true

inductive Slot
  | receipt
  | kind
  | request
  | response
  | serviceCert
deriving DecidableEq, Repr

inductive Switch
  | takesValue (slot : Slot)
  | stops (why : Stop)

namespace Switch

def long? (name : String) : Option Switch :=
  match name with
  | "kind" => some (.takesValue .kind)
  | "request" => some (.takesValue .request)
  | "response" => some (.takesValue .response)
  | "service-cert" => some (.takesValue .serviceCert)
  | "help" => some (.stops .help)
  | "version" => some (.stops .version)
  | _ => none

def short? (c : Char) : Option Stop :=
  if c = 'h' then some .help else if c = 'V' then some .version else none

end Switch

inductive Token
  | separator
  | long (name : String) (value : Option String)
  | short (first : Char)
  | plain (text : String)

def Token.ofText (text : String) : Token :=
  match text.toList with
  | ['-', '-'] => .separator
  | '-' :: '-' :: rest =>
    let name := String.ofList (rest.takeWhile (· ≠ '='))
    match rest.dropWhile (· ≠ '=') with
    | [] => .long name none
    | _ :: value => .long name (some (String.ofList value))
  | '-' :: c :: _ => .short c
  | _ => .plain text

structure Scan where
  settled : List (Slot × String)
  /-- The slot that is being filled, with its value once that has come. -/
  pending : Option (Slot × Option String)
  hasReceipt : Bool
  /-- Set by the separator: all that follows is positional. -/
  trailing : Bool

namespace Scan

def start : Scan := ⟨[], none, false, false⟩

/-- Fills a slot. It is filled once, and only the kind may be empty. -/
def fill (s : Scan) (slot : Slot) (value : String) : Except Stop Scan :=
  if s.settled.any fun filled => filled.1 == slot then .error .conflict
  else if slot ≠ .kind ∧ value = "" then .error .badValue
  else .ok { s with settled := (slot, value) :: s.settled }

def settle (s : Scan) : Except Stop Scan :=
  match s.pending with
  | none => .ok s
  | some (_, none) => .error .badValue
  | some (slot, some value) => fill { s with pending := none } slot value

/-- Stops after what is pending has been settled. -/
def stop (s : Scan) (why : Stop) : Except Stop Scan := do
  let _ ← s.settle
  throw why

def position (s : Scan) (text : String) : Except Stop Scan :=
  if s.hasReceipt then .error .unknownArgument
  else do
    let s ← s.settle
    return { s with pending := some (.receipt, some text), hasReceipt := true }

def plain (s : Scan) (text : String) : Except Stop Scan :=
  match s.pending with
  | some (slot, none) => .ok { s with pending := some (slot, some text) }
  | _ => s.position text

def long (s : Scan) (name : String) (value : Option String) : Except Stop Scan :=
  match Switch.long? name, value with
  | none, _ => .error .unknownArgument
  | some (.stops _), some _ => .error .unneededValue
  | some (.stops why), none => s.stop why
  | some (.takesValue slot), some value => do (← s.settle).fill slot value
  | some (.takesValue slot), none => do
    return { (← s.settle) with pending := some (slot, none) }

def argument (s : Scan) (text : String) : Except Stop Scan :=
  if s.trailing then s.position text
  else match Token.ofText text with
    | .separator => .ok { s with trailing := true }
    | .long name value => s.long name value
    | .short c =>
      match Switch.short? c with
      | some why => s.stop why
      | none => .error .unknownArgument
    | .plain text => s.plain text

def value? (s : Scan) (slot : Slot) : Option String := s.settled.lookup slot

def arguments? (s : Scan) : Option Arguments := do
  return {
    receipt := ← s.value? .receipt
    kind := ← s.value? .kind
    request := ← s.value? .request
    response := ← s.value? .response
    serviceCert := s.value? .serviceCert }

end Scan

def Arguments.parse (args : List String) : Except Stop Arguments := do
  let s ← args.foldlM Scan.argument Scan.start
  match (← s.settle).arguments? with
  | some a => return a
  | none => throw .missingArgument

end LedgerAudit.CommandLine
