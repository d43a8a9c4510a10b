/-!
# Decimal numerals of fixed-width integers

A numeral is an optional sign and ASCII digits. It is read digit by digit, and the first fault met
is reported: a character that is no digit, or a digit that takes the value out of range.
-/

namespace LedgerAudit

/-- Integers of a fixed width, seen as the integers of a range. -/
class FixedWidth (α : Type) where
  least : Int
  greatest : Int
  toInt : α → Int
  ofInt : Int → α
  least_le_toInt : ∀ x, least ≤ toInt x
  toInt_le_greatest : ∀ x, toInt x ≤ greatest
  ofInt_toInt : ∀ x, ofInt (toInt x) = x
  toInt_ofInt : ∀ n, least ≤ n → n ≤ greatest → toInt (ofInt n) = n

namespace FixedWidth

instance : FixedWidth Int64 where
  least := Int64.minValue.toInt
  greatest := Int64.maxValue.toInt
  toInt := Int64.toInt
  ofInt := Int64.ofInt
  least_le_toInt := Int64.minValue_le_toInt
  toInt_le_greatest := Int64.toInt_le
  ofInt_toInt := Int64.ofInt_toInt
  toInt_ofInt n h₁ h₂ := by
    rw [Int64.toInt_minValue] at h₁
    rw [Int64.toInt_maxValue] at h₂
    exact Int64.toInt_ofInt_of_le h₁ (by omega)

instance : FixedWidth Int32 where
  least := Int32.minValue.toInt
  greatest := Int32.maxValue.toInt
  toInt := Int32.toInt
  ofInt := Int32.ofInt
  least_le_toInt := Int32.minValue_le_toInt
  toInt_le_greatest := Int32.toInt_le
  ofInt_toInt := Int32.ofInt_toInt
  toInt_ofInt n h₁ h₂ := by
    rw [Int32.toInt_minValue] at h₁
    rw [Int32.toInt_maxValue] at h₂
    exact Int32.toInt_ofInt_of_le h₁ (by omega)

instance : FixedWidth UInt64 where
  least := 0
  greatest := UInt64.size - 1
  toInt x := x.toNat
  ofInt n := UInt64.ofNat n.toNat
  least_le_toInt x := Int.natCast_nonneg _
  toInt_le_greatest x := by
    have hlt := x.toNat_lt_size
    omega
  ofInt_toInt x := by simp
  toInt_ofInt n h₁ h₂ := by
    rw [UInt64.toNat_ofNat_of_lt' (by omega), Int.toNat_of_nonneg h₁]

end FixedWidth

namespace Numeral

inductive Fault
  | empty
  | badDigit
  | tooLarge
  | tooSmall
deriving DecidableEq, Repr

def Fault.message : Fault → String
  | .empty => "cannot parse integer from empty string"
  | .badDigit => "invalid digit found in string"
  | .tooLarge => "number too large to fit in target type"
  | .tooSmall => "number too small to fit in target type"

/-- Continues a magnitude with more digits; `outside` is the fault of a magnitude above `limit`. -/
def readDigits (limit : Nat) (outside : Fault) (sum : Nat) : List Char → Except Fault Nat
  | [] => .ok sum
  | c :: cs =>
    if c.isDigit then
      let next := 10 * sum + (c.toNat - 48)
      if limit < next then .error outside else readDigits limit outside next cs
    else .error .badDigit

/-- Reads a numeral within a range. A minus sign is a digit fault where nothing is negative. -/
def readWithin (least greatest : Int) : List Char → Except Fault Int
  | [] => .error .empty
  | '+' :: c :: cs => (readDigits greatest.toNat .tooLarge 0 (c :: cs)).map Int.ofNat
  | '-' :: c :: cs =>
    if least < 0 then
      (readDigits (-least).toNat .tooSmall 0 (c :: cs)).map fun n => -(n : Int)
    else .error .badDigit
  | c :: cs => (readDigits greatest.toNat .tooLarge 0 (c :: cs)).map Int.ofNat

/-- The value of an integer that lies in the range of `α`. -/
def fit (α : Type) [FixedWidth α] (n : Int) : Except Fault α :=
  if n < FixedWidth.least α then .error .tooSmall
  else if FixedWidth.greatest α < n then .error .tooLarge
  else .ok (FixedWidth.ofInt n)

def read (α : Type) [FixedWidth α] (cs : List Char) : Except Fault α :=
  (readWithin (FixedWidth.least α) (FixedWidth.greatest α) cs).map FixedWidth.ofInt

end Numeral

end LedgerAudit
