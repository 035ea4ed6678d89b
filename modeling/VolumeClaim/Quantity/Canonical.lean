import VolumeClaim.Quantity

/-!
# The canonical text of a quantity

A quantity is written in its own family of units as a whole number without leading zeros and
the largest unit that leaves it whole: `1024Mi` is written `1Gi` and `1000M` is written `1G`.
A binary quantity that is no whole number of bytes falls back to the decimal suffixes, and a
value finer than nano falls back to the exponent form, so the text is always exact.
-/

namespace VolumeClaim.Quantity
open Text

def floorToThree (n : Int) : Int := 3 * (n / 3)

/-- the decimal suffix of a power of ten; nothing for powers without one -/
def decimalSuffix (tens : Int) : Text :=
  match decimalSuffixes.find? fun unit => unit.2 = tens with
  | some unit => [unit.1]
  | none => []

/-- the exponent form of a power of ten; nothing for the power zero -/
def exponentSuffix (tens : Int) : Text :=
  if tens = 0 then [] else byte 'e' :: signedDecimal tens

/-! ## The binary family -/

/-- `n` exact divisions by ten; nothing if one of them leaves a remainder -/
def divTens? : Nat → Magnitude → Option Magnitude
  | 0, m => some m
  | n + 1, m =>
    let (quotient, remainder) := m.divMod 10
    if remainder = 0 then divTens? n quotient else none

/-- the absolute value as a whole number; nothing if it has a fraction -/
def whole? (q : Quantity) : Option Magnitude :=
  let m := q.magnitude.mulPow2 q.twos
  if 0 ≤ q.tens then some (m.mulPow10 q.tens.toNat) else divTens? (-q.tens).toNat m

/-- divides by 1024 while the number stays whole, at most `limit` times; the number of divisions
and what is left -/
def stripKibi : Nat → Magnitude → Nat × Magnitude
  | 0, m => (0, m)
  | limit + 1, m =>
    if !m.isZero && m.isMultipleOf 1024 then
      let (count, rest) := stripKibi limit (m.divMod 1024).1
      (count + 1, rest)
    else (0, m)

/-- the suffix of `1024^i`; nothing for the unit itself -/
def binarySuffix (i : Nat) : Text := (([] : Text) :: binarySuffixes).getD i []

/-- a whole number with the largest binary suffix -/
def binaryText (m : Magnitude) : Text :=
  let (i, rest) := stripKibi binarySuffixes.length m
  rest.toText ++ binarySuffix i

/-! ## The decimal families -/

/-- moves factors of ten from the magnitude to the power of ten, at most `limit` of them -/
def stripTens : Nat → Magnitude → Int → Magnitude × Int
  | 0, m, tens => (m, tens)
  | limit + 1, m, tens =>
    if !m.isZero && m.isMultipleOf 10 then stripTens limit (m.divMod 10).1 (tens + 1)
    else (m, tens)

/-- the absolute value as a magnitude without factors of ten times a power of ten; a limb of the
magnitude holds at most nine factors -/
def stripped (q : Quantity) : Magnitude × Int :=
  let m := q.magnitude.mulPow2 q.twos
  stripTens (9 * m.limbs.length) m q.tens

/-- the power of ten of the suffix nearest below, from nano to exa -/
def suffixScale (tens : Int) : Int := max (-9) (min 18 (floorToThree tens))

/-- a magnitude times `10^tens` in units of `10^scale`, for a scale not above `tens` -/
def scaledText (m : Magnitude) (tens scale : Int) : Text :=
  (m.mulPow10 (tens - scale).toNat).toText

/-- the exponent form, the exponent a multiple of three -/
def exponentText (m : Magnitude) (tens : Int) : Text :=
  scaledText m tens (floorToThree tens) ++ exponentSuffix (floorToThree tens)

/-- the suffix form, and the exponent form for values finer than nano -/
def suffixText (m : Magnitude) (tens : Int) : Text :=
  if tens < suffixScale tens then exponentText m tens
  else scaledText m tens (suffixScale tens) ++ decimalSuffix (suffixScale tens)

/-! ## All families -/

/-- the text of the absolute value of a quantity other than zero -/
def unsignedText (q : Quantity) : Text :=
  let (m, tens) := q.stripped
  match q.family with
  | .decimalExponent => exponentText m tens
  | .decimalSI => suffixText m tens
  | .binarySI => match q.whole? with
    | some whole => binaryText whole
    | none => suffixText m tens

def toText (q : Quantity) : Text :=
  if q.isZero then decimal 0
  else (if q.negative then [byte '-'] else []) ++ q.unsignedText

end VolumeClaim.Quantity
