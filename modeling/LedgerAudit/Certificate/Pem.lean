import LedgerAudit.Base64
import LedgerAudit.Text.Blank

/-!
# PEM armour

A certificate may come as base64 text between a `BEGIN` and an `END` line. Only the first block is
read, and what follows it does not matter.
-/

namespace LedgerAudit.Pem

def ascii (text : String) : Bytes := text.toList.map fun c => UInt8.ofNat c.toNat

def marker : Bytes := ascii "-----BEGIN"

def beginLine : Bytes := ascii "-----BEGIN "

def endLine : Bytes := ascii "-----END "

def dashes : Bytes := ascii "-----"

def isBlank (b : UInt8) : Bool := b == 32 || b == 9 || b == 10 || b == 12 || b == 13

def trimStart (bytes : Bytes) : Bytes := bytes.dropWhile isBlank

/-- Whether the first bytes that are not blank announce an armour. -/
def isArmoured (bytes : Bytes) : Bool := marker.isPrefixOf (trimStart bytes)

/-- Lines with their line feeds; the last may have none. -/
def lines : Bytes → List Bytes
  | [] => []
  | b :: rest =>
    if b = 10 then [b] :: lines rest
    else match lines rest with
      | [] => [[b]]
      | line :: others => (b :: line) :: others

/-- A line without the blanks at its end; it has to be UTF-8. -/
def trimLine (line : Bytes) : Option Bytes := do
  let text ← Bytes.toText? line
  return Bytes.ofText (String.ofList (Text.trimEnd text.toList))

def hasDashes : Bytes → Bool
  | [] => false
  | b :: rest => dashes.isPrefixOf (b :: rest) || hasDashes rest

def afterHeader : List Bytes → Option (List Bytes)
  | [] => none
  | line :: rest => do
    let _ ← Bytes.toText? line
    if beginLine.isPrefixOf line then
      if hasDashes (line.drop beginLine.length) then return rest else none
    else afterHeader rest

/-- The lines before the footer, joined without the blanks at their ends. -/
def body : List Bytes → Option Bytes
  | [] => none
  | line :: rest => do
    let text ← trimLine line
    if endLine.isPrefixOf line then return []
    else return text ++ (← body rest)

/-- Groups of four symbols, each of which may be padded. -/
def decodeGroups : Bytes → Option Bytes
  | [] => some []
  | w :: x :: y :: z :: rest => do
    let head ← (Base64.standard.decodeGroup 0 w x y z).toOption
    return head ++ (← decodeGroups rest)
  | _ => none

def decode (bytes : Bytes) : Option Bytes := do
  decodeGroups (← body (← afterHeader (lines (trimStart bytes))))

end LedgerAudit.Pem
