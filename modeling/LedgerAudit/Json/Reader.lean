import LedgerAudit.Hex
import LedgerAudit.Json.Numeral

/-!
# Reading JSON text

The reader is an automaton with a stack: a stack frame for each container that is open, and a mode
that says what may come next. Reading a text is a fold over its characters, so reading a longer
text goes through the state of its beginning.
-/

namespace LedgerAudit.Json

inductive SyntaxFault
  | endInValue
  | endInArray
  | endInObject
  | endInString
  | expectedValue
  | expectedWord
  | expectedColon
  | expectedCommaOrBracket
  | expectedCommaOrBrace
  | expectedKey
  | trailingComma
  | trailingCharacters
  | badNumber
  | numberOutOfRange
  | badEscape
  | loneSurrogate
  | unfinishedPair
  | controlCharacter
  | tooDeep
deriving DecidableEq, Repr

def SyntaxFault.message : SyntaxFault → String
  | .endInValue => "EOF while parsing a value"
  | .endInArray => "EOF while parsing a list"
  | .endInObject => "EOF while parsing an object"
  | .endInString => "EOF while parsing a string"
  | .expectedValue => "expected value"
  | .expectedWord => "expected ident"
  | .expectedColon => "expected `:`"
  | .expectedCommaOrBracket => "expected `,` or `]`"
  | .expectedCommaOrBrace => "expected `,` or `\x7d`"
  | .expectedKey => "key must be a string"
  | .trailingComma => "trailing comma"
  | .trailingCharacters => "trailing characters"
  | .badNumber => "invalid number"
  | .numberOutOfRange => "number out of range"
  | .badEscape => "invalid escape"
  | .loneSurrogate => "lone leading surrogate in hex escape"
  | .unfinishedPair => "unexpected end of hex escape"
  | .controlCharacter => "control character (\\u0000-\\u001F) found while parsing a string"
  | .tooDeep => "recursion limit exceeded"

/-- An open container, with what it holds so far, newest first. A member waits for its value. -/
inductive Frame
  | array (items : List Json)
  | object (members : Members)
  | member (members : Members) (key : String)

inductive StringStage
  | plain
  | escape
  | hex (lead : Option Nat) (digits : List Char)
  | pairBackslash (lead : Nat)
  | pairLetter (lead : Nat)

inductive Mode
  | value
  | firstElement
  | nextElement
  | elementEnd
  | firstKey
  | nextKey
  | colon
  | memberEnd
  | word (left : List Char) (v : Json)
  | string (chars : List Char) (stage : StringStage)
  | number (n : Numeral)
  | done (v : Json)

structure Reader where
  stack : List Frame
  mode : Mode

namespace Reader

def start : Reader := ⟨[], .value⟩

/-- At most this many containers may be open at once. -/
def depthLimit : Nat := 127

def isBlank (c : Char) : Bool := c == ' ' || c == '\n' || c == '\t' || c == '\r'

/-- A value is complete: it goes into the innermost open container. -/
def deliver (v : Json) : List Frame → Reader
  | .array items :: rest => ⟨.array (v :: items) :: rest, .elementEnd⟩
  | .member members key :: rest => ⟨.object ((key, v) :: members) :: rest, .memberEnd⟩
  | stack => ⟨stack, .done v⟩

def openContainer (stack : List Frame) (frame : Frame) (mode : Mode) :
    Except SyntaxFault Reader :=
  if stack.length < depthLimit then .ok ⟨frame :: stack, mode⟩ else .error .tooDeep

def beginValue (stack : List Frame) (c : Char) : Except SyntaxFault Reader :=
  if c = 'n' then .ok ⟨stack, .word ['u', 'l', 'l'] .null⟩
  else if c = 't' then .ok ⟨stack, .word ['r', 'u', 'e'] (.bool true)⟩
  else if c = 'f' then .ok ⟨stack, .word ['a', 'l', 's', 'e'] (.bool false)⟩
  else if c = '"' then .ok ⟨stack, .string [] .plain⟩
  else if c = '[' then openContainer stack (.array []) .firstElement
  else if c = '\x7b' then openContainer stack (.object []) .firstKey
  else if c = '-' then .ok ⟨stack, .number { Numeral.blank with negative := true }⟩
  else match Numeral.blank.extend c with
    | .longer n => .ok ⟨stack, .number n⟩
    | _ => .error .expectedValue

def closeArray : List Frame → Except SyntaxFault Reader
  | .array items :: rest => .ok (deliver (.array items.reverse) rest)
  | _ => .error .expectedValue

def closeObject : List Frame → Except SyntaxFault Reader
  | .object members :: rest => .ok (deliver (.object (Members.sort members.reverse)) rest)
  | _ => .error .expectedValue

/-- A string is complete: a key where a member begins, a value elsewhere. -/
def endString (chars : List Char) : List Frame → Reader
  | .object members :: rest =>
    ⟨.member members (String.ofList chars.reverse) :: rest, .colon⟩
  | stack => deliver (.string (String.ofList chars.reverse)) stack

def hexUnit? : List Char → Option Nat
  | [d, c, b, a] => do
    return 4096 * (← Hex.value? a) + 256 * (← Hex.value? b) + 16 * (← Hex.value? c)
      + (← Hex.value? d)
  | _ => none

def isTrailing (n : Nat) : Bool := 0xdc00 ≤ n && n ≤ 0xdfff

def isLeading (n : Nat) : Bool := 0xd800 ≤ n && n ≤ 0xdbff

/-- A unit of four hexadecimal digits is complete. Units of a surrogate pair come together. -/
def endUnit (chars : List Char) (lead : Option Nat) (unit : Nat) : Except SyntaxFault Mode :=
  match lead with
  | none =>
    if isTrailing unit then .error .loneSurrogate
    else if isLeading unit then .ok (.string chars (.pairBackslash unit))
    else .ok (.string (Char.ofNat unit :: chars) .plain)
  | some first =>
    if isTrailing unit then
      let n := 0x10000 + 0x400 * (first - 0xd800) + (unit - 0xdc00)
      .ok (.string (Char.ofNat n :: chars) .plain)
    else .error .loneSurrogate

def simpleEscape? (c : Char) : Option Char :=
  if c = '"' ∨ c = '\\' ∨ c = '/' then some c
  else if c = 'b' then some (Char.ofNat 8)
  else if c = 'f' then some (Char.ofNat 12)
  else if c = 'n' then some '\n'
  else if c = 'r' then some '\r'
  else if c = 't' then some '\t'
  else none

/-- One character of a string. Four bytes are taken after `\u`, whatever they are. -/
def stepString (stack : List Frame) (chars : List Char) (c : Char) :
    StringStage → Except SyntaxFault Reader
  | .plain =>
    if c = '"' then .ok (endString chars stack)
    else if c = '\\' then .ok ⟨stack, .string chars .escape⟩
    else if c.toNat < 0x20 then .error .controlCharacter
    else .ok ⟨stack, .string (c :: chars) .plain⟩
  | .escape =>
    if c = 'u' then .ok ⟨stack, .string chars (.hex none [])⟩
    else match simpleEscape? c with
      | some e => .ok ⟨stack, .string (e :: chars) .plain⟩
      | none => .error .badEscape
  | .hex lead digits =>
    let digits := c :: digits
    if (String.ofList digits).utf8ByteSize < 4 then .ok ⟨stack, .string chars (.hex lead digits)⟩
    else match hexUnit? digits with
      | some unit => (endUnit chars lead unit).map fun mode => ⟨stack, mode⟩
      | none => .error .badEscape
  | .pairBackslash lead =>
    if c = '\\' then .ok ⟨stack, .string chars (.pairLetter lead)⟩ else .error .unfinishedPair
  | .pairLetter lead =>
    if c = 'u' then .ok ⟨stack, .string chars (.hex (some lead) [])⟩ else .error .unfinishedPair

/-- One character between values: punctuation, or the start of the next value. -/
def stepBetween (r : Reader) (c : Char) : Except SyntaxFault Reader :=
  if isBlank c then .ok r
  else match r.mode with
    | .value => beginValue r.stack c
    | .firstElement => if c = ']' then closeArray r.stack else beginValue r.stack c
    | .nextElement => if c = ']' then .error .trailingComma else beginValue r.stack c
    | .elementEnd =>
      if c = ']' then closeArray r.stack
      else if c = ',' then .ok ⟨r.stack, .nextElement⟩
      else .error .expectedCommaOrBracket
    | .firstKey =>
      if c = '\x7d' then closeObject r.stack
      else if c = '"' then .ok ⟨r.stack, .string [] .plain⟩
      else .error .expectedKey
    | .nextKey =>
      if c = '"' then .ok ⟨r.stack, .string [] .plain⟩
      else if c = '\x7d' then .error .trailingComma
      else .error .expectedKey
    | .colon => if c = ':' then .ok ⟨r.stack, .value⟩ else .error .expectedColon
    | .memberEnd =>
      if c = '\x7d' then closeObject r.stack
      else if c = ',' then .ok ⟨r.stack, .nextKey⟩
      else .error .expectedCommaOrBrace
    | _ => .error .trailingCharacters

def endNumber (stack : List Frame) (n : Numeral) : Except SyntaxFault Reader :=
  match n.value? with
  | some v => .ok (deliver (.number v) stack)
  | none => .error .numberOutOfRange

def step (r : Reader) (c : Char) : Except SyntaxFault Reader :=
  match r.mode with
  | .string chars stage => stepString r.stack chars c stage
  | .word (w :: left) v =>
    if c = w then
      if left.isEmpty then .ok (deliver v r.stack) else .ok ⟨r.stack, .word left v⟩
    else .error .expectedWord
  | .number n =>
    match n.extend c with
    | .longer m => .ok ⟨r.stack, .number m⟩
    | .complete => do stepBetween (← endNumber r.stack n) c
    | .invalid => .error .badNumber
  | _ => stepBetween r c

def finishBetween (r : Reader) : Except SyntaxFault Json :=
  match r.mode with
  | .done v => .ok v
  | .firstElement | .elementEnd => .error .endInArray
  | .firstKey | .colon | .memberEnd => .error .endInObject
  | _ => .error .endInValue

def finish (r : Reader) : Except SyntaxFault Json :=
  match r.mode with
  | .string _ _ => .error .endInString
  | .number n =>
    if n.isComplete then do finishBetween (← endNumber r.stack n) else .error .endInValue
  | _ => finishBetween r

end Reader

def parse (text : String) : Except SyntaxFault Json := do
  (← text.toList.foldlM Reader.step Reader.start).finish

end LedgerAudit.Json
