import LedgerAudit.Base64
import LedgerAudit.Digest
import LedgerAudit.Json.Printer
import LedgerAudit.Text.Numeral

/-!
# Why a JSON value is refused

A fault says what a reader found where it expected something else.
-/

namespace LedgerAudit.Json

def described : Json → String
  | .null => "null"
  | .bool b => s!"boolean `{b}`"
  | .number (.integer n) => s!"integer `{n}`"
  | .number (.float x) => s!"floating point `{x.text}`"
  | .string text => s!"string {Text.quoted text}"
  | .array _ => "sequence"
  | .object _ => "map"

inductive Fault
  | wrongType (found : Json) (expected : String)
  | negative (n : Int)
  | notSingleton
  | missingField (name : String)
  | duplicateField (name : String)
  | unknownVariant (found : String) (known : List String)
  | tooShort (length : Nat) (title : String) (fields : Nat)
  | tooLong (length : Nat)
  | noNumber
  | numeral (fault : Numeral.Fault)
  | unknownName (found : String)
  | base64 (text : String) (fault : Base64.Fault)
  | digest (fault : Digest.Fault)
  | tooManyArms (choice arm : String)

def knownVariants (known : List String) : String :=
  match known with
  | [a] => s!"`{a}`"
  | [a, b] => s!"`{a}` or `{b}`"
  | names => "one of " ++ String.intercalate ", " (names.map fun a => s!"`{a}`")

def Fault.message : Fault → String
  | .wrongType found expected => s!"invalid type: {found.described}, expected {expected}"
  | .negative n => s!"invalid value: integer `{n}`, expected u64"
  | .notSingleton => "invalid value: map, expected map with a single key"
  | .missingField name => s!"missing field `{name}`"
  | .duplicateField name => s!"duplicate field `{name}`"
  | .unknownVariant found known =>
    s!"unknown variant `{found}`, expected {knownVariants known}"
  | .tooShort length title fields =>
    s!"invalid length {length}, expected struct {title} with {fields} elements"
  | .tooLong length => s!"invalid length {length}, expected fewer elements in array"
  | .noNumber => "data did not match any variant of untagged enum RawNumber"
  | .numeral fault => fault.message
  | .unknownName found => s!"unknown enum value {Text.quoted found}"
  | .base64 text fault => s!"invalid base64 {Text.quoted text}: {fault.message}"
  | .digest fault => s!"Malformed digest: {fault.message}"
  | .tooManyArms choice arm => s!"{choice} sets more than one {arm}"

end LedgerAudit.Json
