import VolumeClaim.Magnitude.Limbs

/-!
# Products of magnitudes

* `toNat_mul_add`  a product of two words and a carry fits in a double word, so no step wraps;
* `value_mulSmall`, `value_mulPow10`, `value_mulPow2` the products are those of the numbers;
* `canonical_mulSmall`, `canonical_mulPow10`, `canonical_mulPow2` and stay canonical.
-/

namespace VolumeClaim.Magnitude

theorem div_wideBase_lt {n : Nat} {c : UInt64} (h : c.toNat < 10 ^ (9 * (n + 1))) :
    (c / wideBase).toNat < 10 ^ (9 * n) := by
  rw [UInt64.toNat_div, toNat_wideBase, Nat.div_lt_iff_lt_mul (by decide)]
  rw [Nat.mul_add, Nat.pow_add] at h
  omega

theorem limbsValue_carryLimbs {n : Nat} {c : UInt64} (h : c.toNat < 10 ^ (9 * n)) :
    limbsValue (carryLimbs n c) = c.toNat := by
  induction n generalizing c with
  | zero =>
    simp only [Nat.mul_zero, Nat.pow_zero, Nat.lt_one_iff] at h
    simp [carryLimbs, limbsValue_nil, h]
  | succ n ih =>
    rw [carryLimbs]
    split
    · rename_i hc
      simp [hc, limbsValue_nil]
    · rw [limbsValue_cons, ih (div_wideBase_lt h), toNat_mod_wideBase, UInt64.toNat_div, toNat_wideBase]
      omega

theorem carryLimbs_lt {n : Nat} {c : UInt64} : ∀ l ∈ carryLimbs n c, l < base := by
  induction n generalizing c with
  | zero => simp [carryLimbs]
  | succ n ih =>
    rw [carryLimbs]
    split
    · simp
    · intro l hl
      rcases List.mem_cons.mp hl with hl | hl
      · exact hl ▸ mod_wideBase_lt_base c
      · exact ih l hl

theorem carryLimbs_ne {n : Nat} {c : UInt64} (h : c.toNat < 10 ^ (9 * n)) :
    (carryLimbs n c).getLast? ≠ some 0 := by
  induction n generalizing c with
  | zero => simp [carryLimbs]
  | succ n ih =>
    have hv := limbsValue_carryLimbs h
    rw [carryLimbs] at hv ⊢
    split
    · simp
    · rename_i hc
      rw [if_neg hc] at hv
      refine getLast?_cons_ne (ih (div_wideBase_lt h)) fun e => hc ?_
      rw [hv] at e
      exact UInt64.toNat_inj.mp e

/-- a product of two words and a carry fits in a double word -/
theorem toNat_mul_add {l f : UInt32} {carry : UInt64} (hl : l < base) (hc : carry.toNat < 2 ^ 32) :
    (l.toUInt64 * f.toUInt64 + carry).toNat = l.toNat * f.toNat + carry.toNat ∧
      ((l.toUInt64 * f.toUInt64 + carry) / wideBase).toNat < 2 ^ 32 := by
  have hl := toNat_lt_of_lt_base hl
  have hf := f.toNat_lt
  have hp : l.toNat * f.toNat ≤ (10 ^ 9 - 1) * (2 ^ 32 - 1) :=
    Nat.mul_le_mul (by omega) (by omega)
  have e : (l.toUInt64 * f.toUInt64 + carry).toNat = l.toNat * f.toNat + carry.toNat := by
    rw [UInt64.toNat_add, UInt64.toNat_mul, UInt32.toNat_toUInt64, UInt32.toNat_toUInt64]
    omega
  refine ⟨e, ?_⟩
  rw [UInt64.toNat_div, e, toNat_wideBase]
  omega

theorem lt_of_lt_wide {c : UInt64} (h : c.toNat < 2 ^ 32) : c.toNat < 10 ^ (9 * 3) := by omega

theorem limbsValue_mulLimbs {f : UInt32} {carry : UInt64} {ls : List UInt32}
    (h : ∀ l ∈ ls, l < base) (hc : carry.toNat < 2 ^ 32) :
    limbsValue (mulLimbs f carry ls) = limbsValue ls * f.toNat + carry.toNat := by
  induction ls generalizing carry with
  | nil =>
    rw [mulLimbs, limbsValue_carryLimbs (lt_of_lt_wide hc), limbsValue_nil]
    omega
  | cons l ls ih =>
    obtain ⟨hp, hd⟩ := toNat_mul_add (f := f) (h l (by simp)) hc
    rw [mulLimbs, limbsValue_cons, ih (fun x hx => h x (by simp [hx])) hd, toNat_mod_wideBase,
      UInt64.toNat_div, hp, toNat_wideBase, limbsValue_cons, Nat.add_mul, Nat.mul_assoc,
      Nat.mul_add]
    omega

theorem mulLimbs_lt {f : UInt32} {carry : UInt64} {ls : List UInt32} :
    ∀ l ∈ mulLimbs f carry ls, l < base := by
  induction ls generalizing carry with
  | nil => exact carryLimbs_lt
  | cons k ls ih =>
    intro l hl
    rcases List.mem_cons.mp hl with hl | hl
    · exact hl ▸ mod_wideBase_lt_base _
    · exact ih l hl

theorem mulLimbs_ne {f : UInt32} {carry : UInt64} {ls : List UInt32} (hf : f ≠ 0)
    (h : ∀ l ∈ ls, l < base) (hne : ls.getLast? ≠ some 0) (hc : carry.toNat < 2 ^ 32) :
    (mulLimbs f carry ls).getLast? ≠ some 0 := by
  induction ls generalizing carry with
  | nil => exact carryLimbs_ne (lt_of_lt_wide hc)
  | cons l ls ih =>
    obtain ⟨hp, hd⟩ := toNat_mul_add (f := f) (h l (by simp)) hc
    have hv := limbsValue_mulLimbs (f := f) h hc
    have hpos := limbsValue_pos (by simp) hne
    have hf : f.toNat ≠ 0 := fun e => hf (UInt32.toNat_inj.mp e)
    have hm : 0 < limbsValue (l :: ls) * f.toNat := Nat.mul_pos hpos (by omega)
    rw [mulLimbs] at hv
    exact getLast?_cons_ne (ih (fun x hx => h x (by simp [hx])) (getLast?_tail_ne hne) hd)
      (by omega)

theorem value_mulSmall {m : Magnitude} (h : Canonical m) (f : UInt32) :
    (m.mulSmall f).value = m.value * f.toNat := by
  rw [mulSmall]
  split
  · rename_i hf
    simp [hf, value_zero]
  · have := limbsValue_mulLimbs (f := f) h.1 (by decide : (0 : UInt64).toNat < 2 ^ 32)
    simpa [value] using this

theorem canonical_mulSmall {m : Magnitude} (h : Canonical m) (f : UInt32) :
    Canonical (m.mulSmall f) := by
  rw [mulSmall]
  split
  · exact canonical_zero
  · rename_i hf
    exact ⟨mulLimbs_lt, mulLimbs_ne hf h.1 h.2 (by decide)⟩

theorem canonical_mulRepeat {m : Magnitude} (h : Canonical m) (f : UInt32) (n : Nat) :
    Canonical (mulRepeat f n m) := by
  induction n generalizing m with
  | zero => exact h
  | succ n ih => exact ih (canonical_mulSmall h f)

theorem value_mulRepeat {m : Magnitude} (h : Canonical m) (f : UInt32) (n : Nat) :
    (mulRepeat f n m).value = m.value * f.toNat ^ n := by
  induction n generalizing m with
  | zero => simp [mulRepeat]
  | succ n ih =>
    rw [mulRepeat, ih (canonical_mulSmall h f), value_mulSmall h, Nat.pow_succ, Nat.mul_assoc,
      Nat.mul_comm f.toNat]

theorem canonical_mulPow10 {m : Magnitude} (h : Canonical m) (n : Nat) :
    Canonical (m.mulPow10 n) := canonical_mulSmall (canonical_mulRepeat h _ _) _

theorem value_mulPow10 {m : Magnitude} (h : Canonical m) (n : Nat) :
    (m.mulPow10 n).value = m.value * 10 ^ n := by
  have hlt : 10 ^ (n % 9) < 2 ^ 32 :=
    Nat.lt_of_le_of_lt (Nat.pow_le_pow_right (by decide) (by omega : n % 9 ≤ 8)) (by decide)
  rw [mulPow10, value_mulSmall (canonical_mulRepeat h _ _), value_mulRepeat h, toNat_base,
    Nat.pow_eq, UInt32.toNat_ofNat_of_lt' hlt, Nat.mul_assoc, ← Nat.pow_mul, ← Nat.pow_add,
    Nat.div_add_mod]

theorem canonical_mulPow2 {m : Magnitude} (h : Canonical m) (n : Nat) :
    Canonical (m.mulPow2 n) := canonical_mulSmall (canonical_mulRepeat h _ _) _

theorem value_mulPow2 {m : Magnitude} (h : Canonical m) (n : Nat) :
    (m.mulPow2 n).value = m.value * 2 ^ n := by
  have hlt : 2 ^ (n % 29) < 2 ^ 32 := Nat.pow_lt_pow_right (by decide) (by omega)
  rw [mulPow2, value_mulSmall (canonical_mulRepeat h _ _), value_mulRepeat h,
    Nat.one_shiftLeft, Nat.one_shiftLeft, UInt32.toNat_ofNat_of_lt' hlt,
    UInt32.toNat_ofNat_of_lt' (by decide), Nat.mul_assoc, ← Nat.pow_mul, ← Nat.pow_add,
    Nat.div_add_mod]

end VolumeClaim.Magnitude
