/-!
Escaped text keeps one word on one line: a blank, a control character, a number sign and a
backslash are written as a backslash and the three decimal digits of their code.
-/

namespace ThreeAddress.Text

/-- The characters that cannot stand for themselves in a word of the source text. -/
def needsEscape (c : Char) : Bool :=
  c.toNat ≤ 0x20 || c.toNat = 0x7f || c = '#' || c = '\\'

/-- The three decimal digits of a number below one thousand. -/
def threeDigits (n : Nat) : List Char :=
  [Nat.digitChar (n / 100), Nat.digitChar (n / 10 % 10), Nat.digitChar (n % 10)]

/-- The number that three decimal digits denote. -/
def ofThreeDigits (x y z : Char) : Nat :=
  (x.toNat - '0'.toNat) * 100 + (y.toNat - '0'.toNat) * 10 + (z.toNat - '0'.toNat)

/-- The character with a code point, unless the number is none of a character. -/
def charOfCode? (n : Nat) : Option Char :=
  if n.isValidChar then some (Char.ofNat n) else none

/-- One character in escaped form. -/
def escapeChar (c : Char) : List Char :=
  if needsEscape c then '\\' :: threeDigits c.toNat else [c]

/-- A text in escaped form. -/
def escape (text : List Char) : List Char :=
  text.flatMap escapeChar

/-- The text that an escaped form denotes, if every backslash begins an escape of a character. -/
def unescape : List Char → Option (List Char)
  | [] => some []
  | '\\' :: x :: y :: z :: rest =>
    if x.isDigit && y.isDigit && z.isDigit then
      (charOfCode? (ofThreeDigits x y z)).bind fun c => (unescape rest).map (c :: ·)
    else none
  -- A backslash is an error here, because it begins no escape.
  | c :: rest => if c = '\\' then none else (unescape rest).map (c :: ·)

end ThreeAddress.Text
