import VolumeClaim.Magnitude.Limbs

/-!
# Long division of magnitudes

* `toNat_dividend`    a remainder and a limb fit in a double word, so no step wraps;
* `toNat_divStep`     and their quotient fits in a limb;
* `value_divMod`      quotient and remainder are those of the numbers;
* `canonical_divMod`  the quotient is canonical;
* `isMultipleOf_iff`  the test for divisibility is exact.
-/

namespace VolumeClaim.Magnitude

/-- a remainder and a limb fit in a double word -/
theorem toNat_dividend {d l : UInt32} {r : UInt64} (hr : r.toNat < d.toNat) (hl : l < base) :
    (r * wideBase + l.toUInt64).toNat = r.toNat * 10 ^ 9 + l.toNat := by
  have hl := toNat_lt_of_lt_base hl
  have hd := d.toNat_lt
  rw [UInt64.toNat_add, UInt64.toNat_mul, UInt32.toNat_toUInt64, toNat_wideBase]
  omega

/-- quotient and remainder of a step, and that the quotient fits in a limb -/
theorem toNat_divStep {d l : UInt32} {r : UInt64} (hr : r.toNat < d.toNat) (hl : l < base) :
    (((r * wideBase + l.toUInt64) / d.toUInt64).toUInt32).toNat =
        (r.toNat * 10 ^ 9 + l.toNat) / d.toNat ∧
      ((r * wideBase + l.toUInt64) % d.toUInt64).toNat =
        (r.toNat * 10 ^ 9 + l.toNat) % d.toNat ∧
      (r.toNat * 10 ^ 9 + l.toNat) / d.toNat < 10 ^ 9 := by
  have e := toNat_dividend hr hl
  have hl := toNat_lt_of_lt_base hl
  have hq : (r.toNat * 10 ^ 9 + l.toNat) / d.toNat < 10 ^ 9 := by
    rw [Nat.div_lt_iff_lt_mul (by omega)]
    have : (r.toNat + 1) * 10 ^ 9 ≤ d.toNat * 10 ^ 9 := Nat.mul_le_mul_right _ hr
    omega
  refine ⟨?_, ?_, hq⟩
  · rw [UInt64.toNat_toUInt32, UInt64.toNat_div, e, UInt32.toNat_toUInt64]
    exact Nat.mod_eq_of_lt (Nat.lt_trans hq (by decide))
  · rw [UInt64.toNat_mod, e, UInt32.toNat_toUInt64]

theorem divLimbs_cons (d l : UInt32) (ls : List UInt32) : divLimbs d (l :: ls) =
    ((((divLimbs d ls).2 * wideBase + l.toUInt64) / d.toUInt64).toUInt32 :: (divLimbs d ls).1,
      ((divLimbs d ls).2 * wideBase + l.toUInt64) % d.toUInt64) := rfl

theorem limbsValue_divLimbs {d : UInt32} (hd : d ≠ 0) {ls : List UInt32}
    (h : ∀ l ∈ ls, l < base) :
    limbsValue (divLimbs d ls).1 * d.toNat + (divLimbs d ls).2.toNat = limbsValue ls ∧
      (divLimbs d ls).2.toNat < d.toNat ∧ ∀ l ∈ (divLimbs d ls).1, l < base := by
  have hd : 0 < d.toNat := Nat.pos_of_ne_zero fun e => hd (UInt32.toNat_inj.mp e)
  induction ls with
  | nil => exact ⟨by simp [divLimbs, limbsValue_nil], hd, by simp [divLimbs]⟩
  | cons l ls ih =>
    obtain ⟨hv, hr, hb⟩ := ih fun x hx => h x (by simp [hx])
    obtain ⟨eq, er, hq⟩ := toNat_divStep hr (h l (by simp))
    rw [divLimbs_cons]
    refine ⟨?_, er ▸ Nat.mod_lt _ hd, fun x hx => ?_⟩
    · have := Nat.div_add_mod' ((divLimbs d ls).2.toNat * 10 ^ 9 + l.toNat) d.toNat
      rw [limbsValue_cons, eq, er, limbsValue_cons, ← hv, Nat.add_mul, Nat.mul_assoc, Nat.mul_add]
      omega
    · rcases List.mem_cons.mp hx with hx | hx
      · rw [hx, UInt32.lt_iff_toNat_lt, eq]
        exact hq
      · exact hb x hx

theorem value_divMod {m : Magnitude} (h : Canonical m) {d : UInt32} (hd : d ≠ 0) :
    (m.divMod d).1.value = m.value / d.toNat ∧ (m.divMod d).2.toNat = m.value % d.toNat := by
  obtain ⟨hv, hr, _⟩ := limbsValue_divLimbs hd h.1
  have hd1 := d.toNat_lt
  have e : (divLimbs d m.limbs).2.toUInt32.toNat = (divLimbs d m.limbs).2.toNat := by
    rw [UInt64.toNat_toUInt32]
    omega
  simp only [divMod, value, limbsValue_trim, e]
  exact Nat.div_mod_unique (by omega) |>.mpr ⟨by rw [← hv, Nat.mul_comm, Nat.add_comm], hr⟩ |>.imp
    Eq.symm Eq.symm

theorem canonical_divMod {m : Magnitude} (h : Canonical m) {d : UInt32} (hd : d ≠ 0) :
    Canonical (m.divMod d).1 := canonical_trim (limbsValue_divLimbs hd h.1).2.2

theorem isMultipleOf_iff {m : Magnitude} (h : Canonical m) {d : UInt32} (hd : d ≠ 0) :
    m.isMultipleOf d = true ↔ d.toNat ∣ m.value := by
  rw [isMultipleOf, beq_iff_eq, ← UInt32.toNat_inj, (value_divMod h hd).2, Nat.dvd_iff_mod_eq_zero]
  rfl

end VolumeClaim.Magnitude
