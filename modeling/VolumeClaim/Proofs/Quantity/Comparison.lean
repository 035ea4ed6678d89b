import VolumeClaim.Magnitude.Order
import VolumeClaim.Proofs.Quantity.Reading

/-!
# The order of quantities is that of their numbers

* `value_lt_of_sign_lt`   where the signs differ they decide;
* `compareMagnitudes_eq`  on one scale the magnitudes compare as the sizes;
* `compare_eq_cmp`        so quantities compare as the rational numbers they stand for, whatever
  their units and signs.
-/

namespace VolumeClaim.Quantity

theorem sign_bounds (q : Quantity) : -1 ≤ q.sign ∧ q.sign ≤ 1 := by
  unfold sign
  split
  · decide
  · split <;> decide

section
variable {q : Quantity} (h : q.WellFormed)
include h

theorem sign_eq_zero_iff : q.sign = 0 ↔ q.value = 0 := by
  rw [value_eq_zero_iff h]
  unfold sign
  cases q.isZero with
  | true => simp
  | false => cases q.negative <;> simp

theorem sign_neg_iff : q.sign < 0 ↔ q.value < 0 := by
  rw [value_neg_iff h]
  unfold sign
  cases hz : q.isZero with
  | true => simp [h.zero_positive hz]
  | false => cases q.negative <;> simp

end

section
variable {a b : Quantity} (ha : a.WellFormed) (hb : b.WellFormed)
include ha hb

/-- where the signs differ they decide -/
theorem value_lt_of_sign_lt (h : a.sign < b.sign) : a.value < b.value := by
  have hb0 : ¬ b.value < 0 := by
    rw [← sign_neg_iff hb]
    have := (sign_bounds a).1
    omega
  by_cases ha0 : a.value < 0
  · exact lt_of_lt_of_le ha0 (not_lt.mp hb0)
  · have hsa : ¬ a.sign < 0 := by rwa [sign_neg_iff ha]
    have ha1 : a.value = 0 := by
      rw [← sign_eq_zero_iff ha]
      have := (sign_bounds b).2
      omega
    have hb1 : b.value ≠ 0 := by
      rw [ne_eq, ← sign_eq_zero_iff hb]
      omega
    rw [ha1]
    exact lt_of_le_of_ne (not_lt.mp hb0) hb1.symm

theorem compareMagnitudes_eq : compareMagnitudes a b = cmp a.size b.size := by
  have hunit := mul_pos (ten_zpow_pos (min a.tens b.tens)) (two_pow_pos (min a.twos b.twos))
  have hcast : StrictMono ((↑) : ℕ → ℚ) := Nat.strictMono_cast
  unfold compareMagnitudes
  dsimp only
  rw [Magnitude.compare_eq (canonical_magnitudeAt ha _ _) (canonical_magnitudeAt hb _ _),
    ← cmp_eq_compare, ← hcast.cmp_map_eq, ← cmp_mul_pos_right hunit,
    value_magnitudeAt ha (min_le_left _ _) (min_le_left _ _),
    value_magnitudeAt hb (min_le_right _ _) (min_le_right _ _)]

/-- quantities compare as the numbers they stand for -/
theorem compare_eq_cmp : a.compare b = cmp a.value b.value := by
  have hm := compareMagnitudes_eq ha hb
  unfold compare
  split
  · rename_i hne
    split
    · rename_i hlt
      exact ((cmp_eq_lt_iff _ _).mpr (value_lt_of_sign_lt ha hb hlt)).symm
    · rename_i hge
      have hgt : b.sign < a.sign := by omega
      exact ((cmp_eq_gt_iff _ _).mpr (value_lt_of_sign_lt hb ha hgt)).symm
  · rename_i heq
    have heq : a.sign = b.sign := not_not.mp heq
    have va := value_eq_sign_mul ha
    have vb := value_eq_sign_mul hb
    rw [← heq] at vb
    by_cases h0 : a.sign = 0
    · rw [h0] at va vb
      rw [if_pos h0, va, vb]
      simp
    · rw [if_neg h0, hm]
      have hs := sign_bounds a
      by_cases hneg : a.sign < 0
      · have h1 : a.sign = -1 := by omega
        have hanti : StrictAnti (fun x : ℚ => -x) := fun x y hxy => neg_lt_neg hxy
        rw [if_pos hneg, va, vb, h1, cmp_swap]
        simpa using (hanti.cmp_map_eq a.size b.size).symm
      · have h1 : a.sign = 1 := by omega
        rw [if_neg hneg, va, vb, h1]
        simp

theorem eq_iff : a.eq b = true ↔ a.value = b.value := by
  unfold eq
  rw [compare_eq_cmp ha hb, Ordering.isEq_iff_eq_eq, cmp_eq_eq_iff]

theorem lt_iff : a.lt b = true ↔ a.value < b.value := by
  unfold lt
  rw [compare_eq_cmp ha hb, Ordering.isLT_iff_eq_lt, cmp_eq_lt_iff]

theorem gt_iff : a.gt b = true ↔ b.value < a.value := by
  unfold gt
  rw [compare_eq_cmp ha hb, Ordering.isGT_iff_eq_gt, cmp_eq_gt_iff]

theorem ne_iff : a.ne b = true ↔ a.value ≠ b.value := by
  have hnot : a.ne b = !a.eq b := by
    unfold ne eq
    cases a.compare b <;> rfl
  rw [hnot, Bool.not_eq_true', ← Bool.not_eq_true, eq_iff ha hb]

theorem le_iff : a.le b = true ↔ a.value ≤ b.value := by
  have hnot : a.le b = !a.gt b := by
    unfold le gt
    cases a.compare b <;> rfl
  rw [hnot, Bool.not_eq_true', ← Bool.not_eq_true, gt_iff ha hb, not_lt]

theorem ge_iff : a.ge b = true ↔ b.value ≤ a.value := by
  have hnot : a.ge b = !a.lt b := by
    unfold ge lt
    cases a.compare b <;> rfl
  rw [hnot, Bool.not_eq_true', ← Bool.not_eq_true, lt_iff ha hb, not_lt]

end

/-- **Quantities that were read are ordered as the exact numbers they stand for**, the six
comparisons agree with that order, and it is a total preorder. -/
theorem compare_orders_values {ra rb rc : Text} {a b c : Quantity} (ha : parse ra = .ok a)
    (hb : parse rb = .ok b) (hc : parse rc = .ok c) :
    a.compare b = cmp a.value b.value ∧
      ((a.eq b = true ↔ a.value = b.value) ∧ (a.ne b = true ↔ a.value ≠ b.value) ∧
        (a.lt b = true ↔ a.value < b.value) ∧ (a.le b = true ↔ a.value ≤ b.value) ∧
        (a.gt b = true ↔ b.value < a.value) ∧ (a.ge b = true ↔ b.value ≤ a.value)) ∧
      b.compare a = (a.compare b).swap ∧
      (a.le b = true ∨ b.le a = true) ∧
      (a.le b = true → b.le c = true → a.le c = true) := by
  have wa := wellFormed_of_parse ha
  have wb := wellFormed_of_parse hb
  have wc := wellFormed_of_parse hc
  refine ⟨compare_eq_cmp wa wb, ⟨eq_iff wa wb, ne_iff wa wb, lt_iff wa wb, le_iff wa wb,
    gt_iff wa wb, ge_iff wa wb⟩, ?_, ?_, ?_⟩
  · rw [compare_eq_cmp wa wb, compare_eq_cmp wb wa, cmp_swap]
  · rw [le_iff wa wb, le_iff wb wa]
    exact le_total _ _
  · rw [le_iff wa wb, le_iff wb wc, le_iff wa wc]
    exact le_trans

theorem compare_orders_values_mixed_units : ∃ a b c : Quantity,
    parse (ascii "-1.5Gi") = .ok a ∧ parse (ascii "+1e3") = .ok b ∧
      parse (ascii "1000000m") = .ok c ∧ a.compare b = cmp a.value b.value ∧
      (a.le b = true → b.le c = true → a.le c = true) ∧ b.compare c = .eq := by
  have ha : parse (ascii "-1.5Gi") = .ok ⟨true, ⟨[15]⟩, -1, 30, .binarySI⟩ := rfl
  have hb : parse (ascii "+1e3") = .ok ⟨false, ⟨[1]⟩, 3, 0, .decimalExponent⟩ := rfl
  have hc : parse (ascii "1000000m") = .ok ⟨false, ⟨[1000000]⟩, -3, 0, .decimalSI⟩ := rfl
  obtain ⟨hab, -, -, -, htrans⟩ := compare_orders_values ha hb hc
  exact ⟨_, _, _, ha, hb, hc, hab, htrans, rfl⟩

end VolumeClaim.Quantity
