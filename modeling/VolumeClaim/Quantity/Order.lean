import VolumeClaim.Quantity

/-!
# The order of quantities

Quantities are compared by their exact values: `1Gi` equals `1024Mi`, and `1G` is less than
`1Gi`.  Signs decide first; two quantities of one sign are brought to the smaller of their
powers of ten and of two, where both are whole numbers.
-/

namespace VolumeClaim.Quantity

def sign (q : Quantity) : Int := if q.isZero then 0 else if q.negative then -1 else 1

/-- the magnitude in units of `10^tens * 2^twos`, for powers not above the quantity's own -/
def magnitudeAt (q : Quantity) (tens : Int) (twos : Nat) : Magnitude :=
  (q.magnitude.mulPow10 (q.tens - tens).toNat).mulPow2 (q.twos - twos)

/-- the order of the absolute values -/
def compareMagnitudes (a b : Quantity) : Ordering :=
  let tens := min a.tens b.tens
  let twos := min a.twos b.twos
  (a.magnitudeAt tens twos).compare (b.magnitudeAt tens twos)

/-- the order of the values -/
def compare (a b : Quantity) : Ordering :=
  if a.sign ≠ b.sign then (if a.sign < b.sign then .lt else .gt)
  else if a.sign = 0 then .eq
  else if a.sign < 0 then (compareMagnitudes a b).swap
  else compareMagnitudes a b

/-! ## The six comparisons -/

def eq (a b : Quantity) : Bool := (a.compare b).isEq
def ne (a b : Quantity) : Bool := (a.compare b).isNe
def lt (a b : Quantity) : Bool := (a.compare b).isLT
def le (a b : Quantity) : Bool := (a.compare b).isLE
def gt (a b : Quantity) : Bool := (a.compare b).isGT
def ge (a b : Quantity) : Bool := (a.compare b).isGE

end VolumeClaim.Quantity
