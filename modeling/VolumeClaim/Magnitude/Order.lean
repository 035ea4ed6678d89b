import VolumeClaim.Magnitude.Limbs

/-!
# The order of magnitudes

`compare_eq`: canonical magnitudes compare as the numbers they denote, the longer one first and
then limb by limb from the top.
-/

namespace VolumeClaim.Magnitude

theorem compare_toNat (x y : UInt32) : Ord.compare x y = Ord.compare x.toNat y.toNat := by
  simp only [Ord.compare, compareOfLessAndEq, UInt32.lt_iff_toNat_lt, UInt32.toNat_inj]

/-- the high parts decide, and the low parts if the high ones are equal -/
theorem compare_add_mul {b x y m n : Nat} (hx : x < b) (hy : y < b) :
    Ord.compare (x + b * m) (y + b * n) = (Ord.compare m n).then (Ord.compare x y) := by
  rcases Nat.lt_trichotomy m n with h | h | h
  · have : b * (m + 1) ≤ b * n := Nat.mul_le_mul_left _ h
    rw [Nat.mul_add] at this
    rw [Nat.compare_eq_lt.mpr h, Nat.compare_eq_lt.mpr (by omega), Ordering.lt_then]
  · rw [h, Nat.compare_eq_eq.mpr rfl, Ordering.eq_then]
    simp only [Nat.compare_eq_ite_lt, Nat.add_lt_add_iff_right]
  · have : b * (n + 1) ≤ b * m := Nat.mul_le_mul_left _ h
    rw [Nat.mul_add] at this
    rw [Nat.compare_eq_gt.mpr h, Nat.compare_eq_gt.mpr (by omega), Ordering.gt_then]

theorem compareLimbs_eq {a b : List UInt32} (ha : ∀ l ∈ a, l < base) (hb : ∀ l ∈ b, l < base)
    (h : a.length = b.length) : compareLimbs a b = Ord.compare (limbsValue a) (limbsValue b) := by
  induction a generalizing b with
  | nil =>
    obtain rfl := List.length_eq_zero_iff.mp h.symm
    rfl
  | cons x xs ih =>
    match b with
    | y :: ys =>
      rw [compareLimbs, ih (fun l hl => ha l (by simp [hl])) (fun l hl => hb l (by simp [hl]))
        (by simpa using h), limbsValue_cons, limbsValue_cons, compare_toNat,
        compare_add_mul (b := 1000000000) (toNat_lt_of_lt_base (ha x (by simp)))
          (toNat_lt_of_lt_base (hb y (by simp)))]

/-- of two canonical magnitudes the longer one is larger -/
theorem value_lt_of_length_lt {a b : Magnitude} (ha : Canonical a) (hb : Canonical b)
    (h : a.limbs.length < b.limbs.length) : a.value < b.value := by
  obtain ⟨as⟩ := a
  obtain ⟨bs⟩ := b
  cases bs with
  | nil => exact absurd h (Nat.not_lt_zero _)
  | cons l ls =>
    exact Nat.lt_of_lt_of_le (limbsValue_lt ha.1) (Nat.le_trans
      (Nat.pow_le_pow_right (by decide) (Nat.mul_le_mul_left 9 (Nat.le_of_lt_succ h)))
      (le_limbsValue hb.2))

/-- canonical magnitudes compare as the numbers they denote -/
theorem compare_eq {a b : Magnitude} (ha : Canonical a) (hb : Canonical b) :
    a.compare b = Ord.compare a.value b.value := by
  rw [compare]
  rcases Nat.lt_trichotomy a.limbs.length b.limbs.length with h | h | h
  · rw [Nat.compare_eq_lt.mpr h, Nat.compare_eq_lt.mpr (value_lt_of_length_lt ha hb h)]
    rfl
  · rw [Nat.compare_eq_eq.mpr h, Ordering.eq_then, compareLimbs_eq ha.1 hb.1 h]
    rfl
  · rw [Nat.compare_eq_gt.mpr h, Nat.compare_eq_gt.mpr (value_lt_of_length_lt hb ha h)]
    rfl

end VolumeClaim.Magnitude
