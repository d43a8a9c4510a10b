import LedgerAudit.Hex
import LedgerAudit.Json.Basic

/-!
# JSON text

The compact form has no blanks. The indented form puts every element and member on its own line.
-/

namespace LedgerAudit.Json

/-- A character inside a string: quotes, backslashes and controls are escaped. -/
def escaped (c : Char) : List Char :=
  if c = '"' then ['\\', '"']
  else if c = '\\' then ['\\', '\\']
  else if c = '\n' then ['\\', 'n']
  else if c = '\r' then ['\\', 'r']
  else if c = '\t' then ['\\', 't']
  else if c.toNat = 8 then ['\\', 'b']
  else if c.toNat = 12 then ['\\', 'f']
  else if c.toNat < 0x20 then '\\' :: 'u' :: '0' :: '0' :: Hex.pair (UInt8.ofNat c.toNat)
  else [c]

def stringChars (text : String) : List Char := '"' :: text.toList.flatMap escaped ++ ['"']

def Number.text : Number → String
  | .integer n => toString n
  | .float x => x.text

def scalarChars : Json → List Char
  | .bool true => "true".toList
  | .bool false => "false".toList
  | .number n => n.text.toList
  | .string text => stringChars text
  | _ => "null".toList

mutual

def compactChars : Json → List Char
  | .array items => '[' :: compactItems items ++ [']']
  | .object members => '\x7b' :: compactMembers members ++ ['\x7d']
  | v => scalarChars v

def compactItems : List Json → List Char
  | [] => []
  | [v] => compactChars v
  | v :: w :: rest => compactChars v ++ ',' :: compactItems (w :: rest)

def compactMembers : List (String × Json) → List Char
  | [] => []
  | [(key, v)] => stringChars key ++ ':' :: compactChars v
  | (key, v) :: m :: rest =>
    stringChars key ++ ':' :: compactChars v ++ ',' :: compactMembers (m :: rest)

end

def compact (v : Json) : String := String.ofList (compactChars v)

/-- A line break and two blanks for each level. -/
def newline (level : Nat) : List Char := '\n' :: List.replicate (2 * level) ' '

mutual

def indentedChars (level : Nat) : Json → List Char
  | .array [] => ['[', ']']
  | .array (v :: rest) =>
    '[' :: newline (level + 1) ++ indentedChars (level + 1) v
      ++ indentedItems (level + 1) rest ++ newline level ++ [']']
  | .object [] => ['\x7b', '\x7d']
  | .object ((key, v) :: rest) =>
    '\x7b' :: newline (level + 1) ++ stringChars key ++ ':' :: ' ' :: indentedChars (level + 1) v
      ++ indentedMembers (level + 1) rest ++ newline level ++ ['\x7d']
  | v => scalarChars v

def indentedItems (level : Nat) : List Json → List Char
  | [] => []
  | v :: rest => ',' :: newline level ++ indentedChars level v ++ indentedItems level rest

def indentedMembers (level : Nat) : List (String × Json) → List Char
  | [] => []
  | (key, v) :: rest =>
    ',' :: newline level ++ stringChars key ++ ':' :: ' ' :: indentedChars level v
      ++ indentedMembers level rest

end

def indented (v : Json) : String := String.ofList (indentedChars 0 v)

end LedgerAudit.Json
