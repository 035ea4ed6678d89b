import VolumeClaim.Number
import VolumeClaim.Text.Numeral

/-!
# Literals of binary64 numbers

The wide grammar in which configuration documents write numbers: blanks, a sign, and then a
decimal number with an exponent, a hexadecimal number with a binary exponent, `inf` or
`infinity`, or `nan` with an optional note in parentheses; letters in either case.  A literal
is read exactly and rounded once.
-/

namespace VolumeClaim.Binary64
open Text

/-- space and the control characters from tab to carriage return -/
def isBlank (b : UInt8) : Bool := b = 32 || (9 ≤ b && b ≤ 13)

def isHexDigit (b : UInt8) : Bool :=
  isDigit b || (97 ≤ lowerByte b && lowerByte b ≤ 102)

def hexDigitValue (b : UInt8) : Nat :=
  if isDigit b then digitValue b else (lowerByte b).toNat - 87

def hexValue (t : Text) : Nat := t.foldl (fun v d => 16 * v + hexDigitValue d) 0

def isNoteByte (b : UInt8) : Bool :=
  isDigit b || (97 ≤ lowerByte b && lowerByte b ≤ 122) || b = byte '_'

/-- `nan`, alone or with a note in parentheses; the text is in lower case -/
def isNaNWord (t : Text) : Bool :=
  match (ascii "nan").isPrefixOf? t with
  | none => false
  | some [] => true
  | some (b :: rest) =>
    b = byte '(' && rest.dropWhile isNoteByte = [byte ')']

/-- the value of `digits * 10^power`.  Beyond the powers tested here the value is out of range
for certain, so an enormous power is never computed. -/
def ofDecimal (negative : Bool) (digits : Text) (power : Int) : Binary64 :=
  let m := decimalValue digits
  if m = 0 then zero negative
  else if 400 < power then infinity negative
  else if power + digits.length < -400 then zero negative
  else ofRatio negative (m * Nat.pow 10 power.toNat) (Nat.pow 10 (-power).toNat)

/-- the value of `digits * 2^power` with hexadecimal digits -/
def ofHexadecimal (negative : Bool) (digits : Text) (power : Int) : Binary64 :=
  let m := hexValue digits
  if m = 0 then zero negative
  else if 1200 < power then infinity negative
  else if power + 4 * digits.length < -1200 then zero negative
  else ofRatio negative (m <<< power.toNat) (1 <<< (-power).toNat)

def decimalLiteral? (negative : Bool) (t : Text) : Option Binary64 :=
  (Scientific.ofText? t).map fun s =>
    ofDecimal negative s.numeral.digits (s.power - s.numeral.fraction.length)

/-- an unsigned hexadecimal literal, after `0x`; each digit of the fraction is worth four twos -/
def hexadecimalLiteral? (negative : Bool) (t : Text) : Option Binary64 :=
  let (numeral, rest) := Numeral.read isHexDigit t
  if numeral.digits.isEmpty then none
  else (power? (byte 'p') (byte 'P') rest).map fun power =>
    ofHexadecimal negative numeral.digits (power - 4 * numeral.fraction.length)

/-- a literal without blanks and sign -/
def unsignedLiteral? (negative : Bool) (t : Text) : Option Binary64 :=
  let word := lower t
  if word = ascii "inf" ∨ word = ascii "infinity" then some (infinity negative)
  else if isNaNWord word then some nan
  else match (ascii "0x").isPrefixOf? word with
    | some digits => hexadecimalLiteral? negative digits
    | none => decimalLiteral? negative t

/-- the number that a text as a whole denotes -/
def ofLiteral? (t : Text) : Option Binary64 :=
  let (negative, unsigned) := readSign (t.dropWhile isBlank)
  unsignedLiteral? negative unsigned

end VolumeClaim.Binary64
