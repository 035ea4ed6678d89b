import VolumeClaim.Magnitude.Order
import VolumeClaim.Proofs.Magnitude.Checked

/-!
# Magnitudes stand for numbers

Operations are carried out one after another on the magnitude of a string of digits, and on the
number that the digits write.  The two go together whatever is done, with equal replies, and nothing
wraps on the way.

* `Operation`, `Reply`   what is done, and what comes of it;
* `serve`, `reckon`      one operation on a magnitude and on a number;
* `Denotes.serve`, `Denotes.run` the two go together, for one operation and for many;
* `Checked.serve_eq`, `Checked.run_eq` nothing wraps;
* `stands_for_number`    both, from any digits.
-/

namespace VolumeClaim.Magnitude
open Text

/-! ## Operations -/

/-- what is done with a magnitude; the arguments are words -/
inductive Operation where
  | mulSmall (factor : UInt32)
  | mulPow10 (exponent : UInt32)
  | mulPow2 (exponent : UInt32)
  | divide (divisor : UInt32)
  | divisibleBy (divisor : UInt32)

/-- what comes of an operation, apart from the new value -/
inductive Reply where
  | done
  | remainder (r : Nat)
  | verdict (divisible : Bool)
  | refused (fault : Fault)
  deriving DecidableEq

/-- a division that is refused leaves the magnitude that was there -/
def afterDivide (m : Magnitude) : Except Fault (Magnitude × UInt32) → Reply × Magnitude
  | .error fault => (.refused fault, m)
  | .ok result => (.remainder result.2.toNat, result.1)

def afterTest (m : Magnitude) : Except Fault Bool → Reply × Magnitude
  | .error fault => (.refused fault, m)
  | .ok divisible => (.verdict divisible, m)

def serve (m : Magnitude) : Operation → Reply × Magnitude
  | .mulSmall factor => (.done, m.mulSmall factor)
  | .mulPow10 exponent => (.done, m.mulPow10 exponent.toNat)
  | .mulPow2 exponent => (.done, m.mulPow2 exponent.toNat)
  | .divide divisor => afterDivide m (m.divide divisor)
  | .divisibleBy divisor => afterTest m (m.divisibleBy divisor)

def reckon (n : Nat) : Operation → Reply × Nat
  | .mulSmall factor => (.done, n * factor.toNat)
  | .mulPow10 exponent => (.done, n * 10 ^ exponent.toNat)
  | .mulPow2 exponent => (.done, n * 2 ^ exponent.toNat)
  | .divide divisor =>
    if divisor = 0 then (.refused .divisionByZero, n)
    else (.remainder (n % divisor.toNat), n / divisor.toNat)
  | .divisibleBy divisor =>
    if divisor = 0 then (.refused .divisionByZero, n)
    else (.verdict (decide (divisor.toNat ∣ n)), n)

/-- one operation after another, with the replies -/
def run {σ : Type} (step : σ → Operation → Reply × σ) : σ → List Operation → List Reply × σ
  | s, [] => ([], s)
  | s, op :: ops =>
    let first := step s op
    let rest := run step first.2 ops
    (first.1 :: rest.1, rest.2)

/-- what comes of operations on the magnitude of some digits -/
def result (digits : Text) (ops : List Operation) : List Reply × Magnitude :=
  run serve (ofDigits digits) ops

/-- what should come of them -/
def expected (digits : Text) (ops : List Operation) : List Reply × Nat :=
  run reckon (decimalValue digits) ops

namespace Checked

def serve (m : Magnitude) : Operation → Option (Reply × Magnitude)
  | .mulSmall factor => (mulSmall m factor).map fun product => (.done, product)
  | .mulPow10 exponent => (mulPow10 m exponent.toNat).map fun product => (.done, product)
  | .mulPow2 exponent => (mulPow2 m exponent.toNat).map fun product => (.done, product)
  | .divide divisor => (divide m divisor).map (afterDivide m)
  | .divisibleBy divisor => (divisibleBy m divisor).map (afterTest m)

def run : Magnitude → List Operation → Option (List Reply × Magnitude)
  | m, [] => some ([], m)
  | m, op :: ops => do
    let first ← serve m op
    let rest ← run first.2 ops
    some (first.1 :: rest.1, rest.2)

def result (digits : Text) (ops : List Operation) : Option (List Reply × Magnitude) := do
  let m ← ofDigits digits
  run m ops

end Checked

/-! ## One operation -/

/-- a canonical magnitude of a number -/
structure Denotes (m : Magnitude) (n : Nat) : Prop where
  canonical : Canonical m
  value : m.value = n

/-- equal replies, and a magnitude of the number -/
structure Together {α : Type} (left : α × Magnitude) (right : α × Nat) : Prop where
  replies : left.1 = right.1
  denotes : Denotes left.2 right.2

theorem denotes_ofDigits {t : Text} (h : t.all isDigit = true) :
    Denotes (ofDigits t) (decimalValue t) := ⟨canonical_ofDigits h, value_ofDigits h⟩

section
variable {m : Magnitude} {n : Nat}

theorem Denotes.divide (h : Denotes m n) (divisor : UInt32) :
    Together (serve m (.divide divisor)) (reckon n (.divide divisor)) := by
  by_cases hd : divisor = 0
  · have hserve : Magnitude.serve m (.divide divisor) = (.refused .divisionByZero, m) := by
      rw [Magnitude.serve, Magnitude.divide, if_pos hd]
      rfl
    have hreckon : reckon n (.divide divisor) = (.refused .divisionByZero, n) := if_pos hd
    rw [hserve, hreckon]
    exact ⟨rfl, h⟩
  · obtain ⟨hquotient, hremainder⟩ := value_divMod h.canonical hd
    rw [h.value] at hquotient hremainder
    have hserve : Magnitude.serve m (.divide divisor) =
        (.remainder (m.divMod divisor).2.toNat, (m.divMod divisor).1) := by
      rw [Magnitude.serve, Magnitude.divide, if_neg hd]
      rfl
    have hreckon : reckon n (.divide divisor) =
        (.remainder (n % divisor.toNat), n / divisor.toNat) := if_neg hd
    rw [hserve, hreckon, hremainder]
    exact ⟨rfl, canonical_divMod h.canonical hd, hquotient⟩

theorem Denotes.isMultipleOf_eq (h : Denotes m n) {divisor : UInt32} (hd : divisor ≠ 0) :
    m.isMultipleOf divisor = decide (divisor.toNat ∣ n) := by
  rw [Bool.eq_iff_iff, decide_eq_true_iff, isMultipleOf_iff h.canonical hd, h.value]

theorem Denotes.divisibleBy (h : Denotes m n) (divisor : UInt32) :
    Together (serve m (.divisibleBy divisor)) (reckon n (.divisibleBy divisor)) := by
  by_cases hd : divisor = 0
  · have hserve : Magnitude.serve m (.divisibleBy divisor) = (.refused .divisionByZero, m) := by
      rw [Magnitude.serve, Magnitude.divisibleBy, if_pos hd]
      rfl
    have hreckon : reckon n (.divisibleBy divisor) = (.refused .divisionByZero, n) := if_pos hd
    rw [hserve, hreckon]
    exact ⟨rfl, h⟩
  · have hserve : Magnitude.serve m (.divisibleBy divisor) =
        (.verdict (m.isMultipleOf divisor), m) := by
      rw [Magnitude.serve, Magnitude.divisibleBy, if_neg hd]
      rfl
    have hreckon : reckon n (.divisibleBy divisor) =
        (.verdict (decide (divisor.toNat ∣ n)), n) := if_neg hd
    rw [hserve, hreckon, h.isMultipleOf_eq hd]
    exact ⟨rfl, h⟩

/-- an operation takes a magnitude of a number to one of the number that should come of it -/
theorem Denotes.serve (h : Denotes m n) (op : Operation) :
    Together (serve m op) (reckon n op) := by
  have hc := h.canonical
  cases op with
  | mulSmall factor =>
    have hvalue := value_mulSmall hc factor
    rw [h.value] at hvalue
    exact ⟨rfl, canonical_mulSmall hc factor, hvalue⟩
  | mulPow10 exponent =>
    have hvalue := value_mulPow10 hc exponent.toNat
    rw [h.value] at hvalue
    exact ⟨rfl, canonical_mulPow10 hc exponent.toNat, hvalue⟩
  | mulPow2 exponent =>
    have hvalue := value_mulPow2 hc exponent.toNat
    rw [h.value] at hvalue
    exact ⟨rfl, canonical_mulPow2 hc exponent.toNat, hvalue⟩
  | divide divisor => exact h.divide divisor
  | divisibleBy divisor => exact h.divisibleBy divisor

theorem Checked.serve_eq (h : Canonical m) (op : Operation) :
    Checked.serve m op = some (Magnitude.serve m op) := by
  cases op with
  | mulSmall factor =>
    rw [Checked.serve, mulSmall_eq h]
    rfl
  | mulPow10 exponent =>
    rw [Checked.serve, mulPow10_eq h]
    rfl
  | mulPow2 exponent =>
    rw [Checked.serve, mulPow2_eq h]
    rfl
  | divide divisor =>
    rw [Checked.serve, divide_eq h]
    rfl
  | divisibleBy divisor =>
    rw [Checked.serve, divisibleBy_eq h]
    rfl

end

/-! ## Any number of operations -/

theorem Denotes.run {m : Magnitude} {n : Nat} (h : Denotes m n) (ops : List Operation) :
    Together (run Magnitude.serve m ops) (run reckon n ops) := by
  induction ops generalizing m n with
  | nil => exact ⟨rfl, h⟩
  | cons op ops ih =>
    obtain ⟨hreply, hnext⟩ := h.serve op
    obtain ⟨hreplies, hlast⟩ := ih hnext
    exact ⟨congrArg₂ List.cons hreply hreplies, hlast⟩

theorem Checked.run_eq {m : Magnitude} {n : Nat} (h : Denotes m n) (ops : List Operation) :
    Checked.run m ops = some (Magnitude.run Magnitude.serve m ops) := by
  induction ops generalizing m n with
  | nil => rfl
  | cons op ops ih =>
    have hnext := (h.serve op).denotes
    rw [Checked.run, Checked.serve_eq h.canonical, Option.bind_eq_bind, Option.bind_some, ih hnext]
    rfl

theorem Denotes.limbs_eq_nil_iff {m : Magnitude} {n : Nat} (h : Denotes m n) :
    m.limbs = [] ↔ n = 0 := by
  rw [← h.value, ← isZero_iff h.canonical]
  exact List.isEmpty_iff.symm

theorem Denotes.compare_eq {a b : Magnitude} {x y : Nat} (ha : Denotes a x) (hb : Denotes b y) :
    a.compare b = Ord.compare x y := by
  rw [← ha.value, ← hb.value]
  exact Magnitude.compare_eq ha.canonical hb.canonical

theorem Denotes.isZero_eq {m : Magnitude} {n : Nat} (h : Denotes m n) :
    m.isZero = decide (n = 0) := by
  rw [Bool.eq_iff_iff, decide_eq_true_iff, isZero_iff h.canonical, h.value]

theorem together_result {t : Text} (h : t.all isDigit = true) (ops : List Operation) :
    Together (result t ops) (expected t ops) := (denotes_ofDigits h).run ops

theorem Checked.result_eq {t : Text} (h : t.all isDigit = true) (ops : List Operation) :
    Checked.result t ops = some (Magnitude.result t ops) := by
  rw [Checked.result, Checked.ofDigits_eq h]
  exact Checked.run_eq (denotes_ofDigits h) ops

/-- **A magnitude stands for a number under any operations**: from the digits of any number, any
operations leave a canonical magnitude of the number that they leave, with the replies that they
have on it, and no product, sum or conversion on the way needs more than its word.  What is left is
zero, without limbs, exactly if the number is, and compares with what is left of other digits as the
numbers do. -/
theorem stands_for_number {t : Text} (h : t.all isDigit = true) (ops : List Operation) :
    Checked.result t ops = some (result t ops) ∧
      (result t ops).1 = (expected t ops).1 ∧
      Canonical (result t ops).2 ∧
      (result t ops).2.value = (expected t ops).2 ∧
      ((result t ops).2.limbs = [] ↔ (expected t ops).2 = 0) ∧
      (result t ops).2.isZero = decide ((expected t ops).2 = 0) ∧
      ∀ u, u.all isDigit = true → ∀ more, (result t ops).2.compare (result u more).2 =
        Ord.compare (expected t ops).2 (expected u more).2 := by
  obtain ⟨hreplies, hdenotes⟩ := together_result h ops
  refine ⟨Checked.result_eq h ops, hreplies, hdenotes.canonical, hdenotes.value,
    hdenotes.limbs_eq_nil_iff, hdenotes.isZero_eq, ?_⟩
  intro u hu more
  exact hdenotes.compare_eq (together_result hu more).denotes

/-- leading zeros and two full limbs -/
def fullLimbs : Text := ascii "00999999999999999999"

/-- a carry that needs two limbs, and divisions by large divisors and by zero -/
def longRun : List Operation :=
  [.mulSmall 4294967295, .mulPow10 10, .divide 0, .divisibleBy 8, .mulPow2 31,
    .divide 4294967291, .divisibleBy 0]

theorem expected_longRun : expected fullLimbs longRun =
    ([.done, .done, .refused .divisionByZero, .verdict true, .done, .remainder 145954599,
      .refused .divisionByZero], 21474836500000000001808227892492017211) := by decide

theorem stands_for_number_longRun :
    fullLimbs.all isDigit = true ∧ (ascii "0").all isDigit = true ∧
      Checked.result fullLimbs longRun = some (result fullLimbs longRun) ∧
      (result fullLimbs longRun).1 = [.done, .done, .refused .divisionByZero, .verdict true, .done,
        .remainder 145954599, .refused .divisionByZero] ∧
      Canonical (result fullLimbs longRun).2 ∧
      (result fullLimbs longRun).2.value = 21474836500000000001808227892492017211 ∧
      (result fullLimbs longRun).2.isZero = false ∧
      (result fullLimbs longRun).2.compare (result (ascii "0") longRun).2 = .gt := by
  have hdigits : fullLimbs.all isDigit = true := by decide
  have hzero : (ascii "0").all isDigit = true := by decide
  have hother : (expected (ascii "0") longRun).2 = 0 := by decide
  obtain ⟨hchecked, hreplies, hcanonical, hvalue, _, hisZero, hcompare⟩ :=
    stands_for_number hdigits longRun
  have hgt := hcompare (ascii "0") hzero longRun
  rw [expected_longRun] at hreplies hvalue hisZero hgt
  rw [hother] at hgt
  exact ⟨hdigits, hzero, hchecked, hreplies, hcanonical, hvalue, hisZero, hgt⟩

end VolumeClaim.Magnitude
