import VolumeClaim.Text.Digits

/-!
# Binary64 numbers

A number of a configuration document is an IEEE 754 binary64 value, kept as its bits.
`ofRatio` rounds an exact ratio to the nearest such value, a tie to the even one; it works on
natural numbers throughout.  `toText` writes the exact value of a finite number.
-/

namespace VolumeClaim

/-- a binary64 value, by its bits -/
structure Binary64 where
  bits : UInt64
  deriving DecidableEq

namespace Binary64
open Text

def signBit : Nat := 1 <<< 63

/-- the bit above the fraction; the significand of a normal number starts with it -/
def leadBit : Nat := 1 <<< 52

/-- the bits of infinity, and the first that no finite magnitude has -/
def infinityBits : Nat := 2047 * leadBit

def ofMagnitude (negative : Bool) (bits : Nat) : Binary64 :=
  ⟨(if negative then signBit + bits else bits).toUInt64⟩

def zero (negative : Bool) : Binary64 := ofMagnitude negative 0

def infinity (negative : Bool) : Binary64 := ofMagnitude negative infinityBits

def nan : Binary64 := ofMagnitude false (infinityBits + leadBit / 2)

/-- the bits below the sign -/
def magnitude (x : Binary64) : Nat := x.bits.toNat % signBit

def isNegative (x : Binary64) : Bool := signBit ≤ x.bits.toNat

def isFinite (x : Binary64) : Bool := x.magnitude < infinityBits

def isNaN (x : Binary64) : Bool := infinityBits < x.magnitude

/-! ## Rounding -/

/-- the ratio `num / den` as a ratio of naturals in units of `2^unit` -/
def inUnits (num den : Nat) (unit : Int) : Nat × Nat :=
  (num <<< (-unit).toNat, den <<< unit.toNat)

/-- the power of two of the last place of a positive ratio: its significand has 53 bits, fewer
only below the normal numbers -/
def lastPlace (num den : Nat) : Int :=
  let guess : Int := (num.log2 : Int) - den.log2 - 53
  let significand : Nat := (inUnits num den guess).1 / (inUnits num den guess).2
  max (-1074) (if significand < 2 * leadBit then guess else guess + 1)

/-- the quotient rounded to the nearest whole number, a tie to the even one -/
def roundQuotient (n d : Nat) : Nat :=
  let q := n / d
  let twice := 2 * (n % d)
  if twice < d then q else if d < twice then q + 1 else q + q % 2

/-- the bits of the value nearest to a positive ratio -/
def ratioBits (num den : Nat) : Nat :=
  let unit := lastPlace num den
  let (n, d) := inUnits num den unit
  min infinityBits ((unit + 1074).toNat * leadBit + roundQuotient n d)

/-- the value nearest to `num / den`, with the given sign -/
def ofRatio (negative : Bool) (num den : Nat) : Binary64 :=
  if num = 0 then zero negative else ofMagnitude negative (ratioBits num den)

/-! ## Exact text -/

/-- the significand and the power of two of a finite value -/
def parts (x : Binary64) : Nat × Int :=
  let biased : Nat := x.magnitude / leadBit
  let fraction : Nat := x.magnitude % leadBit
  if biased = 0 then (fraction, -1074) else (leadBit + fraction, (biased : Int) - 1075)

/-- the exact decimal of a finite value: below one, `m / 2^n` is `m * 5^n / 10^n` -/
def toText (x : Binary64) : Text :=
  let (m, twos) := x.parts
  (if x.isNegative then [byte '-'] else []) ++
    if 0 ≤ twos then decimal (m <<< twos.toNat)
    else decimal (m * Nat.pow 5 (-twos).toNat) ++ ascii "e-" ++ decimal (-twos).toNat

end Binary64
end VolumeClaim
