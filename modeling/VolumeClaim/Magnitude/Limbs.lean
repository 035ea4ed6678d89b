import Mathlib
import VolumeClaim.Magnitude

/-!
# Canonical limbs

* `limbsValue_lt`, `le_limbsValue` a canonical list of limbs bounds its number from both sides;
* `canonical_trim`  cutting the zeros at the top makes limbs canonical;
* `eq_of_value_eq`  a number has one canonical magnitude;
* `isZero_iff`      and zero has the empty one.
-/

namespace VolumeClaim.Magnitude

theorem toNat_base : base.toNat = 10 ^ 9 := rfl
theorem toNat_wideBase : wideBase.toNat = 10 ^ 9 := rfl

theorem toNat_lt_of_lt_base {l : UInt32} (h : l < base) : l.toNat < 10 ^ 9 := h

theorem mod_wideBase_lt_base (x : UInt64) : (x % wideBase).toUInt32 < base := by
  rw [UInt32.lt_iff_toNat_lt, toNat_base, UInt64.toNat_toUInt32, UInt64.toNat_mod, toNat_wideBase]
  omega

theorem toNat_mod_wideBase (x : UInt64) : (x % wideBase).toUInt32.toNat = x.toNat % 10 ^ 9 := by
  rw [UInt64.toNat_toUInt32, UInt64.toNat_mod, toNat_wideBase]
  omega

/-- limbs below the base stand for a number below the power of it that they span -/
theorem limbsValue_lt {ls : List UInt32} (h : ∀ l ∈ ls, l < base) :
    limbsValue ls < 10 ^ (9 * ls.length) := by
  induction ls with
  | nil => decide
  | cons l ls ih =>
    have hl := toNat_lt_of_lt_base (h l (by simp))
    have := ih fun x hx => h x (by simp [hx])
    rw [limbsValue_cons, List.length_cons, Nat.mul_add, Nat.pow_add]
    omega

/-- a top limb other than zero makes the number at least the power of the base below it -/
theorem le_limbsValue {l : UInt32} {ls : List UInt32} (h : (l :: ls).getLast? ≠ some 0) :
    10 ^ (9 * ls.length) ≤ limbsValue (l :: ls) := by
  induction ls generalizing l with
  | nil =>
    have hl : l.toNat ≠ 0 := fun e => h (congrArg some (UInt32.toNat_inj.mp e))
    rw [limbsValue_cons]
    simp
    omega
  | cons k ls ih =>
    have := ih (l := k) (by simpa [List.getLast?_cons_cons] using h)
    rw [limbsValue_cons, List.length_cons, Nat.mul_add, Nat.pow_add]
    omega

theorem getLast?_tail_ne {l : UInt32} {ls : List UInt32} (h : (l :: ls).getLast? ≠ some 0) :
    ls.getLast? ≠ some 0 := by
  cases ls with
  | nil => simp
  | cons k ls => simpa [List.getLast?_cons_cons] using h

theorem trim_ne {ls : List UInt32} : (trim ls).getLast? ≠ some 0 := by
  fun_induction trim ls with
  | case1 => simp
  | case2 ls h ih => simp
  | case3 l ls h hl ih => simpa using hl
  | case4 l ls h hs e ih =>
    rw [List.getLast?_cons_cons, ← e]
    exact ih

theorem mem_of_mem_trim {x : UInt32} {ls : List UInt32} (h : x ∈ trim ls) : x ∈ ls := by
  fun_induction trim ls with
  | case1 => exact h
  | case2 ls _ ih => simp at h
  | case3 l ls _ hl ih =>
    simp only [List.mem_singleton] at h
    simp [h]
  | case4 l ls k ks e ih =>
    rw [List.mem_cons] at h ⊢
    exact h.imp_right fun hx => ih (e ▸ hx)

theorem canonical_trim {ls : List UInt32} (h : ∀ l ∈ ls, l < base) : Canonical ⟨trim ls⟩ :=
  ⟨fun l hl => h l (mem_of_mem_trim hl), trim_ne⟩

theorem canonical_zero : Canonical zero := ⟨by simp [zero], by simp [zero]⟩

theorem value_zero : zero.value = 0 := rfl

theorem limbsValue_pos {ls : List UInt32} (h : ls ≠ []) (h' : ls.getLast? ≠ some 0) :
    0 < limbsValue ls := by
  cases ls with
  | nil => exact absurd rfl h
  | cons l ls => exact Nat.lt_of_lt_of_le (Nat.pow_pos (by decide)) (le_limbsValue h')

/-- a limb on top of limbs without a zero at the top leaves no zero at the top, unless the
number is zero -/
theorem getLast?_cons_ne {l : UInt32} {ls : List UInt32} (h : ls.getLast? ≠ some 0)
    (hl : limbsValue (l :: ls) ≠ 0) : (l :: ls).getLast? ≠ some 0 := by
  cases ls with
  | nil =>
    intro e
    simp only [List.getLast?_singleton, Option.some.injEq] at e
    simp [e, limbsValue_cons, limbsValue_nil] at hl
  | cons k ls => simpa [List.getLast?_cons_cons] using h

theorem eq_of_limbsValue_eq {a b : List UInt32} (ha : ∀ l ∈ a, l < base) (hb : ∀ l ∈ b, l < base)
    (ha' : a.getLast? ≠ some 0) (hb' : b.getLast? ≠ some 0) (h : limbsValue a = limbsValue b) :
    a = b := by
  induction a generalizing b with
  | nil =>
    cases b with
    | nil => rfl
    | cons y ys => exact absurd h (Nat.ne_of_lt (limbsValue_pos (by simp) hb'))
  | cons x xs ih =>
    cases b with
    | nil => exact absurd h.symm (Nat.ne_of_lt (limbsValue_pos (by simp) ha'))
    | cons y ys =>
      have hx := toNat_lt_of_lt_base (ha x (by simp))
      have hy := toNat_lt_of_lt_base (hb y (by simp))
      rw [limbsValue_cons, limbsValue_cons] at h
      have e : x = y := UInt32.toNat_inj.mp (by omega)
      rw [e, ih (fun l hl => ha l (List.mem_cons_of_mem _ hl))
        (fun l hl => hb l (List.mem_cons_of_mem _ hl)) (getLast?_tail_ne ha')
        (getLast?_tail_ne hb') (by omega)]

/-- canonical magnitudes that denote the same number are equal -/
theorem eq_of_value_eq {a b : Magnitude} (ha : Canonical a) (hb : Canonical b)
    (h : a.value = b.value) : a = b := by
  cases a
  cases b
  exact congrArg _ (eq_of_limbsValue_eq ha.1 hb.1 ha.2 hb.2 h)

/-- zero is written without limbs -/
theorem isZero_iff {m : Magnitude} (h : Canonical m) : m.isZero = true ↔ m.value = 0 := by
  obtain ⟨ls⟩ := m
  cases ls with
  | nil => simp [isZero, value, limbsValue_nil]
  | cons l ls =>
    have := limbsValue_pos (List.cons_ne_nil l ls) h.2
    simp only [isZero, value, List.isEmpty_cons, Bool.false_eq_true, false_iff]
    omega

end VolumeClaim.Magnitude
