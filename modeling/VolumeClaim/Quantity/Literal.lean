import VolumeClaim.Quantity
import VolumeClaim.Text.Numeral

/-!
# Quantity literals

A literal is an optional sign, a decimal number with at most one point and at least one digit,
and a suffix: a binary suffix, a decimal suffix, an exponent, or nothing.  `Quantity.parse`
reads one and keeps its exact value; the three ways in which it fails are the constructors of
`LiteralError`.
-/

namespace VolumeClaim.Quantity
open Text

/-! ## The suffix -/

/-- what a suffix stands for: a factor `10^tens * 2^twos` and a family of units -/
structure Scale where
  family : Family
  tens : Int
  twos : Nat
  deriving DecidableEq

/-- the value of a string of digits up to the largest exponent; nothing if it is larger or if a
byte is no digit -/
def exponentValue? (digits : Text) : Option Nat :=
  digits.foldlM (fun v d =>
    if isDigit d then
      let v' := 10 * v + digitValue d
      if v' ≤ maxExponent then some v' else none
    else none) 0

/-- a signed exponent, at least one digit of it -/
def exponent? (t : Text) : Option Int :=
  let (negative, digits) := readSign t
  if digits = [] then none
  else (exponentValue? digits).map fun v : Nat => if negative then -(v : Int) else v

def binaryScale? (t : Text) : Option Scale :=
  (binarySuffixes.idxOf? t).map fun i => ⟨.binarySI, 0, 10 * (i + 1)⟩

/-- the scale of a suffix of one byte; a zero byte stands for no suffix -/
def byteScale? (b : UInt8) : Option Scale :=
  if b = 0 then some ⟨.decimalSI, 0, 0⟩
  else (decimalSuffixes.lookup b).map fun tens => ⟨.decimalSI, tens, 0⟩

/-- the scale of a suffix; `E` alone is a decimal suffix, `E` with digits an exponent -/
def Scale.parse? (t : Text) : Option Scale :=
  match binaryScale? t with
  | some scale => some scale
  | none => match t with
    | [] => some ⟨.decimalSI, 0, 0⟩
    | [b] => byteScale? b
    | b :: rest =>
      if b = byte 'e' ∨ b = byte 'E' then
        (exponent? rest).map fun tens => ⟨.decimalExponent, tens, 0⟩
      else none

/-! ## The literal -/

inductive LiteralError where
  | empty
  | noDigits (raw : Text)
  | unknownSuffix (raw suffix : Text)
  deriving DecidableEq

def LiteralError.raw : LiteralError → Text
  | .empty => []
  | .noDigits raw => raw
  | .unknownSuffix raw _ => raw

def LiteralError.reason : LiteralError → Text
  | .empty => ascii "empty string"
  | .noDigits _ => ascii "missing numeric value"
  | .unknownSuffix _ suffix => ascii "unknown suffix \"" ++ suffix ++ ascii "\""

def LiteralError.message (e : LiteralError) : Text :=
  untilZero (ascii "unable to parse quantity \"" ++ e.raw ++ ascii "\": " ++ e.reason)

/-- the quantity of a number with a scale; zero is never negative -/
def ofNumeral (negative : Bool) (n : Numeral) (scale : Scale) : Quantity :=
  let magnitude := Magnitude.ofDigits n.digits
  { negative := negative && !magnitude.isZero
    magnitude := magnitude
    tens := scale.tens - n.fraction.length
    twos := scale.twos
    family := scale.family }

/-- the quantity that a literal denotes -/
def parse (raw : Text) : Except LiteralError Quantity :=
  if raw = [] then .error .empty
  else
    let (negative, unsigned) := readSign raw
    let (numeral, suffix) := Numeral.read isDigit unsigned
    if numeral.digits = [] then .error (.noDigits raw)
    else match Scale.parse? suffix with
      | none => .error (.unknownSuffix raw suffix)
      | some scale => .ok (ofNumeral negative numeral scale)

end VolumeClaim.Quantity
