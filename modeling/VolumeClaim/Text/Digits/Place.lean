import Mathlib
import VolumeClaim.Text.Digits

/-!
# Places of decimal digits

* `decimalValue_append`    digits in front of others count by the power of ten behind them;
* `decimalValue_lt`        a string of digits stands for less than its power of ten;
* `decimal_append_padded`  a number is its high digits and a fixed count of low ones.
-/

namespace VolumeClaim.Text

theorem foldl_digitValue (t : Text) (n : Nat) :
    t.foldl (fun v d => 10 * v + digitValue d) n = n * 10 ^ t.length + decimalValue t := by
  induction t generalizing n with
  | nil => simp [decimalValue_nil]
  | cons d t ih =>
    rw [decimalValue, List.foldl_cons, List.foldl_cons, ih, ih, List.length_cons, Nat.pow_succ,
      Nat.add_mul, Nat.mul_comm 10 n, Nat.mul_assoc, Nat.mul_comm 10, Nat.mul_zero, Nat.zero_add,
      Nat.add_assoc]

theorem decimalValue_cons (d : UInt8) (t : Text) :
    decimalValue (d :: t) = digitValue d * 10 ^ t.length + decimalValue t := by
  rw [decimalValue, List.foldl_cons, foldl_digitValue, Nat.mul_zero, Nat.zero_add]

theorem decimalValue_append (s t : Text) :
    decimalValue (s ++ t) = decimalValue s * 10 ^ t.length + decimalValue t := by
  rw [decimalValue, List.foldl_append, foldl_digitValue]
  rfl

theorem decimalValue_lt {t : Text} (h : t.all isDigit = true) :
    decimalValue t < 10 ^ t.length := by
  induction t with
  | nil => decide
  | cons d t ih =>
    simp only [List.all_cons, Bool.and_eq_true] at h
    have hd := digitValue_lt h.1
    have ht := ih h.2
    have : digitValue d * 10 ^ t.length ≤ 9 * 10 ^ t.length := Nat.mul_le_mul_right _ (by omega)
    rw [decimalValue_cons, List.length_cons, Nat.pow_succ]
    omega

/-- a number above a power of ten is its high part, and its low part padded -/
theorem decimal_append_padded {width v n : Nat} (hw : 0 < width) (hv : 0 < v)
    (hn : n < 10 ^ width) : decimal (n + 10 ^ width * v) = decimal v ++ padded width n := by
  induction width generalizing n with
  | zero => exact absurd hw (Nat.lt_irrefl 0)
  | succ w ih =>
    cases w with
    | zero =>
      rw [decimal_of_ge (by omega), padded_one (by omega)]
      congr 3 <;> omega
    | succ w =>
      have h10 : 10 ^ (w + 1 + 1) = 10 * 10 ^ (w + 1) := Nat.pow_succ'
      rw [h10] at hn ⊢
      have hp : 0 < 10 ^ (w + 1) * v := Nat.mul_pos (Nat.pow_pos (by decide)) hv
      rw [padded_succ (by omega), ← List.append_assoc, ← ih (by omega) (by omega : n / 10 < _),
        decimal_of_ge (by rw [Nat.mul_assoc]; omega), Nat.mul_assoc]
      congr 3 <;> omega

end VolumeClaim.Text
