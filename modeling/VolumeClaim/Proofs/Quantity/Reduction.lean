import VolumeClaim.Magnitude.Division
import VolumeClaim.Proofs.Quantity.Value
import VolumeClaim.Quantity.Canonical

/-!
# Reduction of magnitudes

The canonical text moves factors of ten and of 1024 out of a magnitude.  Each of the three
loops keeps the number and stops only where it must.

* `stripTens_spec`   factors of ten, all of them;
* `divTens?_eq_some`, `divTens?_eq_none` a given count of them, or none at all;
* `stripKibi_spec`   factors of 1024, up to a limit;
* `stripped_spec`, `whole?_eq_some`, `whole?_eq_none` and so for the size of a quantity.
-/

namespace VolumeClaim.Quantity
open Magnitude

theorem mul_zpow_add_natCast (x : ℚ) (t : ℤ) (k : ℕ) :
    x * 10 ^ (t + k) = x * 10 ^ k * 10 ^ t := by
  rw [zpow_add₀ (by norm_num), zpow_natCast]
  ring

section
variable {m : Magnitude} (hm : m.Canonical) {d : UInt32} {n : ℕ} (hd : d ≠ 0) (hn : d.toNat = n)
include hm hd hn

/-- one exact division -/
theorem divMod_of_dvd (hdvd : n ∣ m.value) :
    (m.divMod d).1.Canonical ∧ (m.divMod d).1.value * n = m.value := by
  refine ⟨canonical_divMod hm hd, ?_⟩
  rw [(value_divMod hm hd).1, hn, Nat.div_mul_cancel hdvd]

/-- the loops go on while the magnitude is a multiple, but for zero, which is one forever -/
theorem goesOn_iff :
    (!m.isZero && m.isMultipleOf d) = true ↔ m.value ≠ 0 ∧ n ∣ m.value := by
  rw [Bool.and_eq_true, Bool.not_eq_true', ← Bool.not_eq_true, Magnitude.isZero_iff hm,
    isMultipleOf_iff hm hd, hn]

end

/-- the limit is never reached: every division leaves less than a tenth of the bound -/
theorem stripTens_spec {limit : ℕ} {m : Magnitude} (tens : ℤ) (hc : m.Canonical)
    (hm : m.value ≠ 0) (hlimit : m.value < 10 ^ limit) :
    (stripTens limit m tens).1.Canonical ∧ ¬ 10 ∣ (stripTens limit m tens).1.value ∧
      ∃ k : ℕ, (stripTens limit m tens).2 = tens + k ∧
        (stripTens limit m tens).1.value * 10 ^ k = m.value := by
  induction limit generalizing m tens with
  | zero =>
    rw [pow_zero, Nat.lt_one_iff] at hlimit
    exact absurd hlimit hm
  | succ limit ih =>
    have hiff := goesOn_iff hc (d := 10) (n := 10) (by decide) rfl
    rw [stripTens]
    split
    · rename_i hcond
      obtain ⟨hc', hv⟩ := divMod_of_dvd hc (d := 10) (n := 10) (by decide) rfl (hiff.mp hcond).2
      have hp : 10 ^ (limit + 1) = 10 ^ limit * 10 := pow_succ 10 limit
      obtain ⟨hcan, hnot, k, hk, hvalue⟩ := ih (tens + 1) hc' (by omega) (by omega)
      refine ⟨hcan, hnot, k + 1, ?_, ?_⟩
      · rw [hk]
        push_cast
        ring
      · rw [pow_succ, ← mul_assoc, hvalue, hv]
    · rename_i hcond
      exact ⟨hc, fun hdvd => hcond (hiff.mpr ⟨hm, hdvd⟩), 0, by simp, by simp⟩

theorem divTens?_succ {n : ℕ} {m : Magnitude} (hc : m.Canonical) :
    divTens? (n + 1) m = if 10 ∣ m.value then divTens? n (m.divMod 10).1 else none := by
  have hr : (m.divMod 10).2.toNat = m.value % 10 := (value_divMod hc (by decide)).2
  have hiff : (m.divMod 10).2 = 0 ↔ 10 ∣ m.value := by
    rw [← UInt32.toNat_inj, hr, Nat.dvd_iff_mod_eq_zero]
    rfl
  show (if (m.divMod 10).2 = 0 then divTens? n (m.divMod 10).1 else none) = _
  simp only [hiff]

theorem divTens?_eq_some {n : ℕ} {m r : Magnitude} (hc : m.Canonical)
    (h : divTens? n m = some r) : r.Canonical ∧ r.value * 10 ^ n = m.value := by
  induction n generalizing m with
  | zero =>
    cases h
    exact ⟨hc, mul_one _⟩
  | succ n ih =>
    rw [divTens?_succ hc] at h
    split at h
    · rename_i hdvd
      obtain ⟨hc', hv⟩ := divMod_of_dvd hc (d := 10) (n := 10) (by decide) rfl hdvd
      obtain ⟨hcan, hvalue⟩ := ih hc' h
      refine ⟨hcan, ?_⟩
      rw [pow_succ, ← mul_assoc, hvalue, hv]
    · cases h

theorem divTens?_eq_none {n : ℕ} {m : Magnitude} (hc : m.Canonical)
    (h : divTens? n m = none) : ¬ 10 ^ n ∣ m.value := by
  induction n generalizing m with
  | zero => cases h
  | succ n ih =>
    rw [divTens?_succ hc] at h
    split at h
    · rename_i hdvd
      obtain ⟨hc', hv⟩ := divMod_of_dvd hc (d := 10) (n := 10) (by decide) rfl hdvd
      rintro ⟨c, hcv⟩
      refine ih hc' h ⟨c, ?_⟩
      rw [← hv, pow_succ, mul_right_comm] at hcv
      exact Nat.eq_of_mul_eq_mul_right (by decide) hcv
    · rename_i hne
      exact fun hdvd => hne (Dvd.dvd.trans (dvd_pow_self 10 (Nat.succ_ne_zero n)) hdvd)

theorem stripKibi_spec (limit : ℕ) {m : Magnitude} (hc : m.Canonical) :
    (stripKibi limit m).1 ≤ limit ∧ (stripKibi limit m).2.Canonical ∧
      (stripKibi limit m).2.value * 1024 ^ (stripKibi limit m).1 = m.value ∧
      ((stripKibi limit m).1 < limit → m.value ≠ 0 → ¬ 1024 ∣ (stripKibi limit m).2.value) := by
  induction limit generalizing m with
  | zero => exact ⟨Nat.le_refl 0, hc, mul_one _, fun h => absurd h (Nat.lt_irrefl 0)⟩
  | succ limit ih =>
    have hiff := goesOn_iff hc (d := 1024) (n := 1024) (by decide) rfl
    rw [stripKibi]
    split
    · rename_i hcond
      obtain ⟨hc', hv⟩ := divMod_of_dvd hc (d := 1024) (n := 1024) (by decide) rfl (hiff.mp hcond).2
      obtain ⟨hle, hcan, hvalue, hmax⟩ := ih hc'
      refine ⟨Nat.succ_le_succ hle, hcan, ?_, fun hlt hne => ?_⟩
      · show _ * 1024 ^ (_ + 1) = _
        rw [pow_succ, ← mul_assoc, hvalue, hv]
      · exact hmax (Nat.lt_of_succ_lt_succ hlt) (by omega)
    · rename_i hcond
      exact ⟨Nat.zero_le _, hc, mul_one _, fun _ hne hdvd => hcond (hiff.mpr ⟨hne, hdvd⟩)⟩

/-! ## The size of a quantity -/

def IsWhole (x : ℚ) : Prop := ∃ n : ℤ, x = n

theorem isWhole_natCast (n : ℕ) : IsWhole n := ⟨n, rfl⟩

theorem isWhole_neg {x : ℚ} : IsWhole (-x) ↔ IsWhole x := by
  constructor
  · rintro ⟨n, hn⟩
    exact ⟨-n, by rw [Int.cast_neg, ← hn, neg_neg]⟩
  · rintro ⟨n, rfl⟩
    exact ⟨-n, by rw [Int.cast_neg]⟩

theorem isWhole_mul_pow {x : ℚ} (h : IsWhole x) (k : ℕ) : IsWhole (x * 10 ^ k) := by
  obtain ⟨n, rfl⟩ := h
  exact ⟨n * 10 ^ k, by push_cast; rfl⟩

/-- a natural number without factors of ten stays whole under no negative power -/
theorem isWhole_mul_zpow_iff {m : ℕ} (hm : ¬ 10 ∣ m) (k : ℤ) :
    IsWhole (m * 10 ^ k) ↔ 0 ≤ k := by
  constructor
  · rintro ⟨n, hn⟩
    by_contra hneg
    obtain ⟨j, hj⟩ : ∃ j : ℕ, k = -(j + 1 : ℕ) := ⟨(-k - 1).toNat, by omega⟩
    have hpos : (10 : ℚ) ^ (j + 1) ≠ 0 := by positivity
    rw [hj, zpow_neg, zpow_natCast, mul_inv_eq_iff_eq_mul₀ hpos] at hn
    have hn : (m : ℤ) = n * 10 ^ (j + 1) := by exact_mod_cast hn
    refine hm (Int.natCast_dvd_natCast.mp ?_)
    rw [hn, pow_succ, ← mul_assoc]
    exact Dvd.intro_left _ rfl
  · intro hk
    obtain ⟨j, rfl⟩ := Int.eq_ofNat_of_zero_le hk
    rw [zpow_natCast]
    exact isWhole_mul_pow (isWhole_natCast m) j

section
variable {q : Quantity} (h : q.WellFormed)
include h

theorem value_mulPow2_mul : ((q.magnitude.mulPow2 q.twos).value : ℚ) * 10 ^ q.tens = q.size := by
  unfold size
  rw [value_mulPow2 h.canonical]
  push_cast
  ring

theorem value_mulPow2_ne_zero (hz : q.isZero = false) :
    (q.magnitude.mulPow2 q.twos).value ≠ 0 := by
  intro e
  have hv := value_mulPow2_mul h
  rw [e, Nat.cast_zero, zero_mul] at hv
  exact absurd hv (ne_of_lt (size_pos h hz))

theorem stripped_spec (hz : q.isZero = false) :
    q.stripped.1.Canonical ∧ ¬ 10 ∣ q.stripped.1.value ∧
      (q.stripped.1.value : ℚ) * 10 ^ q.stripped.2 = q.size := by
  have hc := canonical_mulPow2 h.canonical q.twos
  have hv := value_mulPow2_mul h
  have hne := value_mulPow2_ne_zero h hz
  obtain ⟨hcan, hnot, k, hk, hvalue⟩ := stripTens_spec q.tens hc hne (limbsValue_lt hc.1)
  refine ⟨hcan, hnot, ?_⟩
  show (_ : ℚ) * 10 ^ (stripTens _ _ q.tens).2 = _
  rw [hk, mul_zpow_add_natCast, ← hv, ← hvalue]
  push_cast
  rfl

theorem whole?_eq_some {m : Magnitude} (hw : q.whole? = some m) :
    m.Canonical ∧ (m.value : ℚ) = q.size := by
  have hc := canonical_mulPow2 h.canonical q.twos
  rw [← value_mulPow2_mul h]
  unfold whole? at hw
  dsimp only at hw
  split at hw
  · rename_i hpos
    cases hw
    obtain ⟨j, hj⟩ := Int.eq_ofNat_of_zero_le hpos
    refine ⟨canonical_mulPow10 hc _, ?_⟩
    rw [value_mulPow10 hc, hj]
    push_cast
    rfl
  · rename_i hneg
    obtain ⟨j, hj⟩ : ∃ j : ℕ, q.tens = -j := ⟨(-q.tens).toNat, by omega⟩
    rw [hj, neg_neg, Int.toNat_natCast] at hw
    obtain ⟨hcan, hvalue⟩ := divTens?_eq_some hc hw
    have hpos : (10 : ℚ) ^ j ≠ 0 := by positivity
    refine ⟨hcan, ?_⟩
    rw [← hvalue, hj, zpow_neg, zpow_natCast]
    push_cast
    field_simp

theorem whole?_eq_none (hw : q.whole? = none) : ¬ IsWhole q.size := by
  have hc := canonical_mulPow2 h.canonical q.twos
  rw [← value_mulPow2_mul h]
  unfold whole? at hw
  dsimp only at hw
  split at hw
  · cases hw
  · rename_i hneg
    obtain ⟨j, hj⟩ : ∃ j : ℕ, q.tens = -j := ⟨(-q.tens).toNat, by omega⟩
    rw [hj, neg_neg, Int.toNat_natCast] at hw
    have hpos : (10 : ℚ) ^ j ≠ 0 := by positivity
    rintro ⟨n, hn⟩
    rw [hj, zpow_neg, zpow_natCast, mul_inv_eq_iff_eq_mul₀ hpos] at hn
    have hn : ((q.magnitude.mulPow2 q.twos).value : ℤ) = n * 10 ^ j := by exact_mod_cast hn
    refine divTens?_eq_none hc hw (Int.natCast_dvd_natCast.mp ?_)
    rw [hn]
    push_cast
    exact Dvd.intro_left _ rfl

end

end VolumeClaim.Quantity
