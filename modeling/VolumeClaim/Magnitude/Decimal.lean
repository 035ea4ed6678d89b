import VolumeClaim.Magnitude.Limbs
import VolumeClaim.Text.Digits.Place

/-!
# Magnitudes and decimal digits

* `value_ofDigits`, `canonical_ofDigits` a string of digits is read as the number it writes;
* `toText_eq`  a canonical magnitude is written as the number it denotes.
-/

namespace VolumeClaim.Magnitude
open Text

/-! ## Reading -/

theorem toNat_digit {d : UInt8} (h : isDigit d = true) :
    (d - 48).toUInt32.toNat = digitValue d := by
  simp only [isDigit, Bool.and_eq_true, decide_eq_true_eq] at h
  rw [UInt8.toNat_toUInt32, UInt8.toNat_sub_of_le _ _ h.1]
  rfl

/-- one more digit still fits in a limb, as long as there are nine in all -/
theorem toNat_mul_ten_add {v : UInt32} {d : UInt8} {k : Nat} (hd : isDigit d = true)
    (hv : v.toNat < 10 ^ k) (hk : k < 9) :
    (v * 10 + (d - 48).toUInt32).toNat = 10 * v.toNat + digitValue d ∧
      10 * v.toNat + digitValue d < 10 ^ (k + 1) := by
  have h9 : 10 ^ (k + 1) ≤ 10 ^ 9 := Nat.pow_le_pow_right (by decide) hk
  have hlt := digitValue_lt hd
  have hten : (10 : UInt32).toNat = 10 := rfl
  rw [UInt32.toNat_add, UInt32.toNat_mul, toNat_digit hd, hten]
  omega

/-- nine digits fit in a limb -/
theorem limb_eq {t : Text} (h : t.length ≤ 9) (hd : t.all isDigit = true) :
    (limb t).toNat = decimalValue t := by
  suffices e : ∀ (v : UInt32) (k : Nat), v.toNat < 10 ^ k → k + t.length ≤ 9 →
      (t.foldl (fun v d => v * 10 + (d - 48).toUInt32) v).toNat =
        t.foldl (fun v d => 10 * v + digitValue d) v.toNat from
    e 0 0 (by decide) (by omega)
  clear h
  induction t with
  | nil => exact fun _ _ _ _ => rfl
  | cons d t ih =>
    intro v k hv hk
    simp only [List.all_cons, Bool.and_eq_true] at hd
    rw [List.length_cons] at hk
    obtain ⟨e, hlt⟩ := toNat_mul_ten_add hd.1 hv (by omega)
    rw [← e] at hlt
    rw [List.foldl_cons, List.foldl_cons, ih hd.2 _ (k + 1) hlt (by omega), e]

theorem limb_lt {t : Text} (h : t.length ≤ 9) (hd : t.all isDigit = true) : limb t < base := by
  rw [UInt32.lt_iff_toNat_lt, limb_eq h hd]
  exact Nat.lt_of_lt_of_le (decimalValue_lt hd) (Nat.pow_le_pow_right (by decide) h)

theorem chunks_succ (n : Nat) {t : Text} (h : t ≠ []) :
    chunks (n + 1) t = limb (t.take 9).reverse :: chunks n (t.drop 9) := by
  cases t with
  | nil => exact absurd rfl h
  | cons d t => rfl

theorem length_take_reverse (t : Text) (n : Nat) : (t.take n).reverse.length ≤ n := by
  rw [List.length_reverse, List.length_take]
  exact Nat.min_le_left _ _

theorem all_take_reverse {t : Text} (h : t.all isDigit = true) (n : Nat) :
    (t.take n).reverse.all isDigit = true := by
  rw [List.all_reverse]
  exact List.all_eq_true.mpr fun d hd => List.all_eq_true.mp h d (List.mem_of_mem_take hd)

theorem all_drop {t : Text} (h : t.all isDigit = true) (n : Nat) :
    (t.drop n).all isDigit = true :=
  List.all_eq_true.mpr fun d hd => List.all_eq_true.mp h d (List.mem_of_mem_drop hd)

theorem limbsValue_chunks {n : Nat} {t : Text} (hn : t.length ≤ n) (hd : t.all isDigit = true) :
    limbsValue (chunks n t) = decimalValue t.reverse := by
  induction n generalizing t with
  | zero =>
    obtain rfl := List.length_eq_zero_iff.mp (Nat.le_zero.mp hn)
    rfl
  | succ n ih =>
    by_cases ht : t = []
    · subst ht
      rfl
    have hpos := List.length_pos_iff.mpr ht
    rw [chunks_succ n ht, limbsValue_cons,
      limb_eq (length_take_reverse t 9) (all_take_reverse hd 9),
      ih (by rw [List.length_drop]; omega) (all_drop hd 9)]
    by_cases h9 : t.length ≤ 9
    · rw [List.drop_of_length_le h9, List.take_of_length_le h9]
      simp [decimalValue_nil]
    · have hr : t.reverse = (t.drop 9).reverse ++ (t.take 9).reverse := by
        rw [← List.reverse_append, List.take_append_drop]
      rw [hr, decimalValue_append, List.length_reverse, List.length_take,
        Nat.min_eq_left (by omega)]
      omega

theorem chunks_lt {n : Nat} {t : Text} (hd : t.all isDigit = true) :
    ∀ l ∈ chunks n t, l < base := by
  induction n generalizing t with
  | zero => simp [chunks]
  | succ n ih =>
    by_cases ht : t = []
    · subst ht
      simp [chunks]
    · rw [chunks_succ n ht]
      intro l hl
      rcases List.mem_cons.mp hl with hl | hl
      · exact hl ▸ limb_lt (length_take_reverse t 9) (all_take_reverse hd 9)
      · exact ih (all_drop hd 9) l hl

theorem value_ofDigits {t : Text} (h : t.all isDigit = true) :
    (ofDigits t).value = decimalValue t := by
  rw [value, ofDigits, limbsValue_trim, limbsValue_chunks (by simp) (by simpa using h),
    List.reverse_reverse]

theorem canonical_ofDigits {t : Text} (h : t.all isDigit = true) : Canonical (ofDigits t) :=
  canonical_trim (chunks_lt (by simpa using h))

/-! ## Writing -/

theorem toText_cons (l : UInt32) {ls : List UInt32} (h : ls ≠ []) :
    toText ⟨l :: ls⟩ = toText ⟨ls⟩ ++ padded 9 l.toNat := by
  rw [toText, toText, List.reverse_cons]
  cases hr : ls.reverse with
  | nil => exact absurd (List.reverse_eq_nil_iff.mp hr) h
  | cons top rest => simp

/-- a canonical magnitude is written as the number it denotes -/
theorem toText_eq {m : Magnitude} (h : Canonical m) : m.toText = decimal m.value := by
  obtain ⟨ls⟩ := m
  induction ls with
  | nil => rfl
  | cons l ls ih =>
    cases ls with
    | nil => simp [toText, value, limbsValue_cons, limbsValue_nil]
    | cons k ls =>
      have hne := getLast?_tail_ne h.2
      have hc : Canonical ⟨k :: ls⟩ := ⟨fun x hx => h.1 x (List.mem_cons_of_mem _ hx), hne⟩
      rw [toText_cons l (by simp), ih hc]
      exact (decimal_append_padded (by decide) (limbsValue_pos (by simp) hne)
        (toNat_lt_of_lt_base (h.1 l (by simp)))).symm

end VolumeClaim.Magnitude
