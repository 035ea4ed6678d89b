import VolumeClaim.Magnitude.Product
import VolumeClaim.Magnitude.Decimal
import VolumeClaim.Quantity.Literal
import VolumeClaim.Quantity.Order

/-!
# The number that a quantity stands for

`value q` is the rational number `± magnitude * 10^tens * 2^twos`, without a bound on any part.
`WellFormed q` is what reading guarantees: canonical limbs, and no minus sign on zero.

* `value_eq_sign_mul`   a number is its sign times its size;
* `size_pos`            and the size of a quantity other than zero is positive;
* `value_magnitudeAt`   the size in units of a smaller power is a natural number.
-/

namespace VolumeClaim.Quantity

/-- the absolute value of the number denoted -/
def size (q : Quantity) : ℚ := q.magnitude.value * 10 ^ q.tens * 2 ^ q.twos

/-- the number denoted -/
def value (q : Quantity) : ℚ := if q.negative then -q.size else q.size

/-- canonical limbs, and zero is not negative -/
structure WellFormed (q : Quantity) : Prop where
  canonical : q.magnitude.Canonical
  zero_positive : q.isZero = true → q.negative = false

theorem ten_zpow_pos (k : ℤ) : (0 : ℚ) < 10 ^ k := zpow_pos (by norm_num) k

theorem two_pow_pos (n : ℕ) : (0 : ℚ) < 2 ^ n := pow_pos (by norm_num) n

theorem size_nonneg (q : Quantity) : 0 ≤ q.size := by
  have h10 := ten_zpow_pos q.tens
  have h2 := two_pow_pos q.twos
  unfold size
  positivity

theorem abs_value (q : Quantity) : |q.value| = q.size := by
  have hs := size_nonneg q
  unfold value
  split
  · rw [abs_neg, abs_of_nonneg hs]
  · exact abs_of_nonneg hs

section
variable {q : Quantity} (h : q.WellFormed)
include h

theorem isZero_iff_magnitude : q.isZero = true ↔ q.magnitude.value = 0 :=
  Magnitude.isZero_iff h.canonical

theorem size_pos (hz : q.isZero = false) : 0 < q.size := by
  have hm : q.magnitude.value ≠ 0 := fun e => by
    rw [(isZero_iff_magnitude h).mpr e] at hz
    cases hz
  have hm' : (0 : ℚ) < q.magnitude.value := by exact_mod_cast Nat.pos_of_ne_zero hm
  exact mul_pos (mul_pos hm' (ten_zpow_pos _)) (two_pow_pos _)

theorem size_eq_zero (hz : q.isZero = true) : q.size = 0 := by
  unfold size
  rw [(isZero_iff_magnitude h).mp hz, Nat.cast_zero, zero_mul, zero_mul]

theorem value_eq_zero (hz : q.isZero = true) : q.value = 0 := by
  unfold value
  rw [size_eq_zero h hz, neg_zero, ite_self]

theorem value_eq_sign_mul : q.value = q.sign * q.size := by
  unfold value sign
  cases hz : q.isZero with
  | true => rw [size_eq_zero h hz]; simp
  | false => cases q.negative <;> simp

theorem value_eq_zero_iff : q.value = 0 ↔ q.isZero = true := by
  refine ⟨fun e => ?_, value_eq_zero h⟩
  by_contra hz
  have hs := size_pos h (by simpa using hz)
  unfold value at e
  split at e <;> linarith

theorem value_ne_zero_iff : q.value ≠ 0 ↔ q.isZero = false := by
  rw [ne_eq, value_eq_zero_iff h, Bool.not_eq_true]

theorem value_neg_iff : q.value < 0 ↔ q.negative = true := by
  have hs := size_nonneg q
  unfold value
  cases hn : q.negative with
  | false => simpa using hs
  | true =>
    have hz : q.isZero = false := by
      by_contra hz
      have := h.zero_positive (by simpa using hz)
      rw [hn] at this
      cases this
    simpa using size_pos h hz

theorem canonical_magnitudeAt (tens : ℤ) (twos : ℕ) : (q.magnitudeAt tens twos).Canonical :=
  Magnitude.canonical_mulPow2 (Magnitude.canonical_mulPow10 h.canonical _) _

/-- in units of smaller powers of ten and two the size is a natural number -/
theorem value_magnitudeAt {tens : ℤ} {twos : ℕ} (h10 : tens ≤ q.tens) (h2 : twos ≤ q.twos) :
    ((q.magnitudeAt tens twos).value : ℚ) * (10 ^ tens * 2 ^ twos) = q.size := by
  have e10 : (10 : ℚ) ^ (q.tens - tens).toNat * 10 ^ tens = 10 ^ q.tens := by
    rw [← zpow_natCast, ← zpow_add₀ (by norm_num)]
    congr 1
    omega
  have e2 : (2 : ℚ) ^ (q.twos - twos) * 2 ^ twos = 2 ^ q.twos := by
    rw [← pow_add, Nat.sub_add_cancel h2]
  unfold magnitudeAt size
  rw [Magnitude.value_mulPow2 (Magnitude.canonical_mulPow10 h.canonical _),
    Magnitude.value_mulPow10 h.canonical, ← e10, ← e2]
  push_cast
  ring

end

end VolumeClaim.Quantity
