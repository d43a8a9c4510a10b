import LedgerAudit.Certificate.Der

/-!
# Times in certificates

A time is checked to be a date of the calendar and a time of the day. It is not compared with
anything: receipts outlive certificates.
-/

namespace LedgerAudit.Der.Time

def digit? (b : UInt8) : Option Nat :=
  if 48 ≤ b ∧ b ≤ 57 then some (b.toNat - 48) else none

def number (sum : Nat) : (digits : Nat) → Bytes → Option (Nat × Bytes)
  | 0, bytes => some (sum, bytes)
  | _ + 1, [] => none
  | digits + 1, b :: rest => do number (10 * sum + (← digit? b)) digits rest

def isLeapYear (year : Nat) : Bool := year % 4 == 0 && (year % 100 != 0 || year % 400 == 0)

def daysIn (year : Nat) : (month : Nat) → Nat
  | 1 | 3 | 5 | 7 | 8 | 10 | 12 => 31
  | 4 | 6 | 9 | 11 => 30
  | 2 => if isLeapYear year then 29 else 28
  | _ => 0

def isDate (year month day : Nat) : Bool := 1 ≤ day && day ≤ daysIn year month

def isTimeOfDay (hour minute second : Nat) : Bool := hour < 24 && minute < 60 && second < 60

/-- `Z`, or a sign with hours and minutes. -/
def isZone : Bytes → Bool
  | [90] => true
  | sign :: rest =>
    (sign == 43 || sign == 45) &&
      match number 0 2 rest with
      | none => false
      | some (hours, rest) =>
        match number 0 2 rest with
        | some (minutes, []) => hours ≤ 25 && minutes < 60
        | _ => false
  | [] => false

/-- A decimal point and at most three digits, which may be missing. -/
def skipFraction : Bytes → Option Bytes
  | 46 :: rest =>
    let digits := (rest.takeWhile fun b => (digit? b).isSome).length
    if digits ≤ 3 then some (rest.drop digits) else none
  | bytes => some bytes

/-- Seconds are missing only where nothing but one byte is left. -/
def readSeconds (bytes : Bytes) : Option (Nat × Bytes) :=
  if bytes.length < 2 then some (0, bytes) else number 0 2 bytes

def isUtcTime (content : Bytes) : Bool := (do
  let (year, rest) ← number 0 2 content
  let (month, rest) ← number 0 2 rest
  let (day, rest) ← number 0 2 rest
  let (hour, rest) ← number 0 2 rest
  let (minute, rest) ← number 0 2 rest
  let (second, rest) ← readSeconds rest
  return isDate year month day && isTimeOfDay hour minute second && isZone rest).getD false

def isGeneralizedTime (content : Bytes) : Bool := (do
  let (year, rest) ← number 0 4 content
  let (month, rest) ← number 0 2 rest
  let (day, rest) ← number 0 2 rest
  let (hour, rest) ← number 0 2 rest
  let (minute, rest) ← number 0 2 rest
  let (second, rest) ← readSeconds rest
  let rest ← skipFraction rest
  return isDate year month day && isTimeOfDay hour minute second && rest == [90]).getD false

def skip (bytes : Bytes) : Option Bytes := do
  let (e, rest) ← read bytes
  if e.header.tag = Tag.utcTime ∧ isUtcTime e.content then return rest
  else if e.header.tag = Tag.generalizedTime ∧ isGeneralizedTime e.content then return rest
  else none

end LedgerAudit.Der.Time
