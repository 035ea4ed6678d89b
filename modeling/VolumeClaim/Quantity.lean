import VolumeClaim.Magnitude

/-!
# Quantities

A quantity of storage is an exact number `± magnitude * 10^tens * 2^twos` together with the
family of units that it was written in.  The magnitude has any size and the powers are kept
apart, so no literal is ever rounded.  The family decides how the quantity is written again.
-/

namespace VolumeClaim

/-- the families of units: `12e6`, `12Mi`, `12M` -/
inductive Family where
  | decimalExponent
  | binarySI
  | decimalSI
  deriving DecidableEq

/-- an exact quantity with its family of units -/
structure Quantity where
  negative : Bool
  magnitude : Magnitude
  tens : Int
  twos : Nat
  family : Family
  deriving DecidableEq

namespace Quantity

def isZero (q : Quantity) : Bool := q.magnitude.isZero

/-- the suffixes of the binary family: the `i`-th one, from zero, stands for `1024^(i + 1)` -/
def binarySuffixes : List Text :=
  [ascii "Ki", ascii "Mi", ascii "Gi", ascii "Ti", ascii "Pi", ascii "Ei"]

/-- the suffixes of the decimal family with their powers of ten; of two suffixes for one power
the first is the one that is written -/
def decimalSuffixes : List (UInt8 × Int) :=
  [(byte 'n', -9), (byte 'u', -6), (byte 'm', -3), (byte 'k', 3), (byte 'K', 3), (byte 'M', 6),
    (byte 'G', 9), (byte 'T', 12), (byte 'P', 15), (byte 'E', 18)]

/-- the largest exponent that a literal may carry, so that a short literal cannot ask for a
gigantic magnitude -/
def maxExponent : Nat := 1024

end Quantity
end VolumeClaim
