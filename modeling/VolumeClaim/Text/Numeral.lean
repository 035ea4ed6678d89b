import VolumeClaim.Text.Digits

/-!
# Signs, numerals and scientific notation

The parts of which literals of numbers are made: a sign, digits with at most one point, and a
power of ten.  `Numeral.read` takes the longest numeral at the start of a text and returns what
follows; `Scientific.ofText?` accepts a text only as a whole.
-/

namespace VolumeClaim.Text

/-- whether a text starts with a minus sign, and the text without its sign -/
def readSign : Text → Bool × Text
  | [] => (false, [])
  | b :: rest =>
    if b = byte '-' then (true, rest)
    else if b = byte '+' then (false, rest)
    else (false, b :: rest)

/-- the digits of a number on either side of its point -/
structure Numeral where
  whole : Text
  fraction : Text
  deriving DecidableEq

/-- all digits, the point forgotten -/
def Numeral.digits (n : Numeral) : Text := n.whole ++ n.fraction

/-- the numeral at the start of a text, in digits of the given kind, and what follows it; the
first point belongs to the numeral even if no digit follows it -/
def Numeral.read (isDigit : UInt8 → Bool) (t : Text) : Numeral × Text :=
  let whole := t.takeWhile isDigit
  match t.dropWhile isDigit with
  | [] => (⟨whole, []⟩, [])
  | b :: rest =>
    if b = byte '.' then (⟨whole, rest.takeWhile isDigit⟩, rest.dropWhile isDigit)
    else (⟨whole, []⟩, b :: rest)

/-- a signed string of digits, at least one of them, and nothing else -/
def wholeNumber? (t : Text) : Option Int :=
  let (negative, digits) := readSign t
  if digits.isEmpty || !digits.all isDigit then none
  else some (if negative then -(decimalValue digits : Int) else decimalValue digits)

/-- the power at the end of a number: nothing, or one of two marks and a whole number -/
def power? (lowerMark upperMark : UInt8) : Text → Option Int
  | [] => some 0
  | b :: rest => if b = lowerMark ∨ b = upperMark then wholeNumber? rest else none

structure Scientific where
  numeral : Numeral
  power : Int
  deriving DecidableEq

/-- an unsigned decimal number: digits with at most one point, then `e` or `E` and a power of
ten, if any -/
def Scientific.ofText? (t : Text) : Option Scientific :=
  let (numeral, rest) := Numeral.read isDigit t
  if numeral.digits.isEmpty then none
  else (power? (byte 'e') (byte 'E') rest).map fun power => ⟨numeral, power⟩

end VolumeClaim.Text
