/-! Numerals are read digit by digit in a base, and a sign or a radix mark may stand before them. -/

namespace ThreeAddress.Text

/-- The value of an ASCII digit or letter, where letters of either case count on from ten. -/
def digitValue (c : Char) : Option Nat :=
  if '0' ≤ c ∧ c ≤ '9' then some (c.toNat - '0'.toNat)
  else if 'a' ≤ c ∧ c ≤ 'z' then some (c.toNat - 'a'.toNat + 10)
  else if 'A' ≤ c ∧ c ≤ 'Z' then some (c.toNat - 'A'.toNat + 10)
  else none

/-- The value of a digit of the given base. -/
def digitIn (base : Nat) (c : Char) : Option Nat :=
  (digitValue c).filter (· < base)

/-- Continues a numeral whose digits so far denote `value`. -/
def readDigits (base value : Nat) : List Char → Option Nat
  | [] => some value
  | c :: rest => (digitIn base c).bind fun digit => readDigits base (value * base + digit) rest

/-- The number denoted by one or more digits of the given base. -/
def readNatural (base : Nat) (digits : List Char) : Option Nat :=
  -- Without any digit there is no number, not even zero.
  if digits.isEmpty then none else readDigits base 0 digits

/-- Reads an optional sign, and then a number as the given reader does. -/
def readSigned (read : List Char → Option Nat) : List Char → Option Int
  | '-' :: rest => (read rest).map fun n => -(n : Int)
  | '+' :: rest => (read rest).map fun n => (n : Int)
  | text => (read text).map fun n => (n : Int)

/-- Reads hexadecimal digits after `0x`, octal digits after `0o`, and decimal digits otherwise. -/
def readMarked : List Char → Option Nat
  | '0' :: 'x' :: digits => readNatural 16 digits
  | '0' :: 'X' :: digits => readNatural 16 digits
  | '0' :: 'o' :: digits => readNatural 8 digits
  | '0' :: 'O' :: digits => readNatural 8 digits
  | digits => readNatural 10 digits

/-- A number as a machine integer, if it lies in the range of 64-bit signed integers. -/
def toInt64? (n : Int) : Option Int64 :=
  if Int64.minValue.toInt ≤ n ∧ n ≤ Int64.maxValue.toInt then some (Int64.ofInt n) else none

/-- Reads a decimal machine integer with an optional sign. -/
def readInt64 (text : List Char) : Option Int64 :=
  (readSigned (readNatural 10) text).bind toInt64?

/-- Reads a machine integer in the notations that literals allow. -/
def readIntLiteral (text : List Char) : Option Int64 :=
  (readSigned readMarked text).bind toInt64?

/-- Reads a positive order: decimal digits without a leading zero, below 2 to the power 64. -/
def readOrder (text : List Char) : Option UInt64 :=
  match text with
  | [] => none
  | first :: _ =>
    -- A leading zero is refused, so that zero is no order either.
    if first = '0' then none
    else
      (readNatural 10 text).bind fun n =>
        if n < UInt64.size then some (UInt64.ofNat n) else none

end ThreeAddress.Text
