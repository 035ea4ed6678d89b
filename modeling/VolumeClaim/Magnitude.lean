import VolumeClaim.Text.Digits

/-!
# Magnitudes

A magnitude is a natural number of any size, kept as base-`10^9` limbs with the least
significant limb first.  A limb is a 32-bit word; products, carries and remainders are 64-bit
words, in which `(10^9 - 1) * (2^32 - 1) + (2^32 - 1)` still fits, so no step wraps.  Zero is
the empty list, and a canonical magnitude has no zero limb at the top; every operation keeps
magnitudes canonical.  `value` is the number denoted.
-/

namespace VolumeClaim

/-- little-endian limbs in base `10^9` -/
structure Magnitude where
  limbs : List UInt32
  deriving DecidableEq

namespace Magnitude
open Text

def base : UInt32 := 1000000000

def wideBase : UInt64 := 1000000000

/-- the number that a list of limbs stands for -/
def limbsValue : List UInt32 → Nat
  | [] => 0
  | l :: ls => l.toNat + base.toNat * limbsValue ls

def value (m : Magnitude) : Nat := limbsValue m.limbs

/-- limbs below the base, and none of them a zero at the top -/
def Canonical (m : Magnitude) : Prop :=
  (∀ l ∈ m.limbs, l < base) ∧ m.limbs.getLast? ≠ some 0

theorem limbsValue_nil : limbsValue [] = 0 := rfl
theorem limbsValue_cons (l : UInt32) (ls : List UInt32) :
    limbsValue (l :: ls) = l.toNat + 1000000000 * limbsValue ls := rfl

def zero : Magnitude := ⟨[]⟩

def isZero (m : Magnitude) : Bool := m.limbs.isEmpty

/-- the limbs without the zeros at the top -/
def trim : List UInt32 → List UInt32
  | [] => []
  | l :: ls => match trim ls with
    | [] => if l = 0 then [] else [l]
    | h :: hs => l :: h :: hs

theorem limbsValue_trim (ls : List UInt32) : limbsValue (trim ls) = limbsValue ls := by
  fun_induction trim ls with
  | case1 => rfl
  | case2 ls h ih =>
    rw [h, limbsValue_nil] at ih
    simp [limbsValue_cons, ← ih, limbsValue_nil]
  | case3 l ls h hl ih =>
    rw [h, limbsValue_nil] at ih
    simp [limbsValue_cons, ← ih, limbsValue_nil]
  | case4 l ls h hs e ih => rw [limbsValue_cons, ← e, ih, limbsValue_cons]

/-! ## Reading digits -/

/-- the limb of at most nine digits, most significant digit first -/
def limb (digits : Text) : UInt32 := digits.foldl (fun v d => v * 10 + (d - 48).toUInt32) 0

/-- the limbs of a string of digits given least significant digit first, nine digits to a limb;
the first argument bounds the number of limbs -/
def chunks : Nat → Text → List UInt32
  | 0, _ => []
  | _ + 1, [] => []
  | n + 1, d :: ds => limb ((d :: ds).take 9).reverse :: chunks n ((d :: ds).drop 9)

/-- the number written by a string of digits; the empty string is zero -/
def ofDigits (digits : Text) : Magnitude := ⟨trim (chunks digits.length digits.reverse)⟩

/-! ## Multiplication -/

/-- the limbs of a carry; three limbs hold any 64-bit word -/
def carryLimbs : Nat → UInt64 → List UInt32
  | 0, _ => []
  | n + 1, carry =>
    if carry = 0 then [] else (carry % wideBase).toUInt32 :: carryLimbs n (carry / wideBase)

/-- every limb times the factor, the carry passed upwards -/
def mulLimbs (factor : UInt32) : UInt64 → List UInt32 → List UInt32
  | carry, [] => carryLimbs 3 carry
  | carry, l :: ls =>
    let product := l.toUInt64 * factor.toUInt64 + carry
    (product % wideBase).toUInt32 :: mulLimbs factor (product / wideBase) ls

def mulSmall (m : Magnitude) (factor : UInt32) : Magnitude :=
  if factor = 0 then zero else ⟨mulLimbs factor 0 m.limbs⟩

def mulRepeat (factor : UInt32) : Nat → Magnitude → Magnitude
  | 0, m => m
  | n + 1, m => mulRepeat factor n (m.mulSmall factor)

/-- the product with `10^n`, nine tens at a time -/
def mulPow10 (m : Magnitude) (n : Nat) : Magnitude :=
  (mulRepeat base (n / 9) m).mulSmall (Nat.pow 10 (n % 9)).toUInt32

/-- the product with `2^n`, 29 twos at a time: `2^29` is the largest power of two below the
base -/
def mulPow2 (m : Magnitude) (n : Nat) : Magnitude :=
  (mulRepeat (1 <<< 29 : Nat).toUInt32 (n / 29) m).mulSmall (1 <<< (n % 29)).toUInt32

/-! ## Division -/

/-- long division from the top limb: the quotient limbs and the remainder -/
def divLimbs (divisor : UInt32) : List UInt32 → List UInt32 × UInt64
  | [] => ([], 0)
  | l :: ls =>
    let (quotient, remainder) := divLimbs divisor ls
    let dividend := remainder * wideBase + l.toUInt64
    ((dividend / divisor.toUInt64).toUInt32 :: quotient, dividend % divisor.toUInt64)

/-- quotient and remainder by a divisor other than zero -/
def divMod (m : Magnitude) (divisor : UInt32) : Magnitude × UInt32 :=
  let (quotient, remainder) := divLimbs divisor m.limbs
  (⟨trim quotient⟩, remainder.toUInt32)

inductive Fault where
  | divisionByZero
  deriving DecidableEq

def Fault.message : Fault → Text
  | .divisionByZero => ascii "division by zero"

def divide (m : Magnitude) (divisor : UInt32) : Except Fault (Magnitude × UInt32) :=
  if divisor = 0 then .error .divisionByZero else .ok (m.divMod divisor)

def isMultipleOf (m : Magnitude) (divisor : UInt32) : Bool := (m.divMod divisor).2 == 0

def divisibleBy (m : Magnitude) (divisor : UInt32) : Except Fault Bool :=
  if divisor = 0 then .error .divisionByZero else .ok (m.isMultipleOf divisor)

/-! ## Comparison and text -/

/-- limbs of one length, compared from the top -/
def compareLimbs : List UInt32 → List UInt32 → Ordering
  | a :: as, b :: bs => (compareLimbs as bs).then (Ord.compare a b)
  | _, _ => .eq

/-- the longer one is larger; of two of one length, the top limb that differs decides -/
def compare (a b : Magnitude) : Ordering :=
  (Ord.compare a.limbs.length b.limbs.length).then (compareLimbs a.limbs b.limbs)

/-- the decimal digits, without leading zeros: the top limb as it is, every other limb with nine
digits -/
def toText (m : Magnitude) : Text :=
  match m.limbs.reverse with
  | [] => decimal 0
  | top :: rest => decimal top.toNat ++ rest.flatMap fun l => padded 9 l.toNat

end Magnitude
end VolumeClaim
