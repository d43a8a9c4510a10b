import LedgerAudit.Json.Fault
import LedgerAudit.Text.Blank

/-!
# Codecs

A codec reads values of a type from JSON and writes them as JSON. Integers of 64 bits and names of
enumerations may be given in several spellings and are written in one.
-/

namespace LedgerAudit.Json

structure Codec (α : Type) where
  read : Json → Except Fault α
  write : α → Json

def Codec.RoundTrips {α : Type} (c : Codec α) : Prop := ∀ a, c.read (c.write a) = .ok a

namespace Codec

variable {α : Type}

def bool : Codec Bool where
  read
    | .bool b => .ok b
    | v => .error (.wrongType v "a boolean")
  write := .bool

def text : Codec String where
  read
    | .string s => .ok s
    | v => .error (.wrongType v "a string")
  write := .string

def optional (c : Codec α) : Codec (Option α) where
  read
    | .null => .ok none
    | v => (c.read v).map some
  write
    | none => .null
    | some a => c.write a

def list (c : Codec α) : Codec (List α) where
  read
    | .array items => items.mapM c.read
    | v => .error (.wrongType v "a sequence")
  write as := .array (as.map c.write)

/-- The two alphabets are tried in turn, and the fault is that of the second. -/
def readBase64 (s : String) : Except Fault Bytes :=
  let symbols := Bytes.ofText s
  match Base64.standard.decode symbols with
  | .ok bytes => .ok bytes
  | .error _ =>
    match Base64.urlSafe.decode symbols with
    | .ok bytes => .ok bytes
    | .error fault => .error (.base64 s fault)

def base64 : Codec Bytes where
  read
    | .null => readBase64 ""
    | .string s => readBase64 s
    | v => .error (.wrongType v "a string")
  write bytes := .string (Base64.standard.encodeText bytes)

def liftNumeral (r : Except Numeral.Fault α) : Except Fault α :=
  match r with
  | .ok a => .ok a
  | .error fault => .error (.numeral fault)

/-- A fixed-width integer as a decimal string, or as a JSON number; null is zero. -/
def fixedWidth (α : Type) [FixedWidth α] : Codec α where
  read
    | .null => .ok (FixedWidth.ofInt 0)
    | .number (.integer n) => liftNumeral (Numeral.fit α n)
    | .string s => liftNumeral (Numeral.read α (Text.trim s.toList))
    | _ => .error .noNumber
  write a := .string (toString (FixedWidth.toInt a))

/-- An enumeration open to other values: its names count from zero, and a value without a name is
written as a number. -/
def enumeration (names : List String) : Codec Int32 where
  read
    | .null => .ok 0
    | .number (.integer n) => liftNumeral (Numeral.fit Int32 n)
    | .string s =>
      match names.idxOf? s with
      | some i => .ok (Int32.ofNat i)
      | none => .error (.unknownName s)
    | _ => .error .noNumber
  write a :=
    match (if 0 ≤ a.toInt then names[a.toInt.toNat]? else none) with
    | some name => .string name
    | none => .integer a.toInt

def natural : Codec UInt64 where
  read
    | .number (.integer n) =>
      if n < 0 then .error (.negative n) else .ok (UInt64.ofNat n.toNat)
    | v => .error (.wrongType v "u64")
  write n := .integer n.toNat

def digest : Codec Digest where
  read v := do
    match Digest.ofHex (← text.read v) with
    | .ok d => return d
    | .error fault => throw (.digest fault)
  write d := .string d.toHex

/-- One of some named variants: its name, or an object with the name as its only key and null. -/
def variant (known : List (String × α)) (name : α → String) : Codec α where
  read v := do
    let (found, content) ← match v with
      | .string s => pure (s, Json.null)
      | .object [(key, content)] => pure (key, content)
      | .object _ => throw .notSingleton
      | v => throw (.wrongType v "string or map")
    match known.lookup found, content with
    | none, _ => throw (.unknownVariant found (known.map Prod.fst))
    | some a, .null => pure a
    | some _, content => throw (.wrongType content "unit")
  write a := .string (name a)

def members : Codec Members where
  read
    | .object ms => .ok ms
    | v => .error (.wrongType v "a map")
  write := .object

end Codec

end LedgerAudit.Json
