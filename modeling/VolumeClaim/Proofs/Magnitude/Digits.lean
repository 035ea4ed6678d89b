import VolumeClaim.Proofs.Magnitude.Refinement

/-!
# Magnitudes and their digits

Digits are read nine at a time from the right, and every limb but the top one is written with all of
its nine digits.  Both ways are exact.

* `decimal_decimalValue`  digits without the zeros in front are the text of the number they write;
* `toText_ofDigits`       so this is what is written of digits that were read;
* `ofDigits_toText`       and a canonical magnitude is read back from its text;
* `digits_exact`          both, whatever was done with the magnitude before.
-/

namespace VolumeClaim

/-! ## Zeros in front -/

namespace Text

/-- the digits from the first one that is not zero; one zero if all of them are -/
def withoutLeadingZeros (t : Text) : Text :=
  if t.all (· = byte '0') then [byte '0'] else t.dropWhile (· = byte '0')

theorem withoutLeadingZeros_zero_cons (t : Text) :
    withoutLeadingZeros (byte '0' :: t) = withoutLeadingZeros t := by
  simp [withoutLeadingZeros]

theorem withoutLeadingZeros_cons {d : UInt8} (h : d ≠ byte '0') (t : Text) :
    withoutLeadingZeros (d :: t) = d :: t := by
  simp [withoutLeadingZeros, h]

theorem decimalValue_singleton (d : UInt8) : decimalValue [d] = digitValue d :=
  Nat.zero_add _

theorem decimalValue_zero_cons (t : Text) : decimalValue (byte '0' :: t) = decimalValue t := rfl

theorem decimal_decimalValue_cons {d : UInt8} {t : Text} (hd : isDigit d = true)
    (ht : t.all isDigit = true) (hne : d ≠ byte '0') : decimal (decimalValue (d :: t)) = d :: t := by
  induction t using List.reverseRecOn with
  | nil => rw [decimalValue_singleton, decimal_of_lt (digitValue_lt hd), digitByte_digitValue hd]
  | append_singleton t x ih =>
    rw [List.all_append, List.all_cons, List.all_nil, Bool.and_true, Bool.and_eq_true] at ht
    have ih := ih ht.1
    have hx := digitValue_lt ht.2
    -- the digits in front are no zero, or their text would be one
    have hpos : decimalValue (d :: t) ≠ 0 := fun hzero => by
      rw [hzero, decimal_zero] at ih
      exact hne (List.cons.inj ih).1.symm
    rw [← List.cons_append, decimalValue_concat, decimal_of_ge (by omega)]
    have hdiv : (10 * decimalValue (d :: t) + digitValue x) / 10 = decimalValue (d :: t) := by omega
    have hmod : (10 * decimalValue (d :: t) + digitValue x) % 10 = digitValue x := by omega
    rw [hdiv, hmod, ih, digitByte_digitValue ht.2]

/-- digits without the zeros in front are the text of the number that they write -/
theorem decimal_decimalValue {t : Text} (h : t.all isDigit = true) :
    decimal (decimalValue t) = withoutLeadingZeros t := by
  induction t with
  | nil => rfl
  | cons d t ih =>
    rw [List.all_cons, Bool.and_eq_true] at h
    by_cases hd : d = byte '0'
    · rw [hd, decimalValue_zero_cons, withoutLeadingZeros_zero_cons, ih h.2]
    · rw [decimal_decimalValue_cons h.1 h.2 hd, withoutLeadingZeros_cons hd]

end Text

/-! ## Reading and writing -/

namespace Magnitude
open Text

theorem toText_ofDigits {t : Text} (h : t.all isDigit = true) :
    (ofDigits t).toText = withoutLeadingZeros t := by
  rw [toText_eq (canonical_ofDigits h), value_ofDigits h, decimal_decimalValue h]

section
variable {m : Magnitude} (h : Canonical m)
include h

theorem all_isDigit_toText : m.toText.all isDigit = true := by
  rw [toText_eq h]
  exact all_isDigit_decimal m.value

theorem ofDigits_toText : ofDigits m.toText = m := by
  have hdigits := all_isDigit_toText h
  refine eq_of_value_eq (canonical_ofDigits hdigits) h ?_
  rw [value_ofDigits hdigits, toText_eq h, decimalValue_decimal]

end

/-- **Text and limbs determine each other**: digits that are read are written again without the
zeros in front of them, and whatever operations leave is written in digits that are read back as the
same limbs. -/
theorem digits_exact {t : Text} (h : t.all isDigit = true) (ops : List Operation) :
    (ofDigits t).toText = withoutLeadingZeros t ∧
      (result t ops).2.toText.all isDigit = true ∧
      (ofDigits (result t ops).2.toText).limbs = (result t ops).2.limbs := by
  have hcanonical := (together_result h ops).denotes.canonical
  refine ⟨toText_ofDigits h, all_isDigit_toText hcanonical, ?_⟩
  rw [ofDigits_toText hcanonical]

/-- zeros that fill a limb in front, in the middle and at the end -/
def zeroLimbs : Text := ascii "00000000010000000000000000004000000000"

theorem digits_exact_zeroLimbs : zeroLimbs.all isDigit = true ∧
    (ofDigits zeroLimbs).toText = ascii "10000000000000000004000000000" ∧
    (result zeroLimbs longRun).2.toText.all isDigit = true ∧
    (ofDigits (result zeroLimbs longRun).2.toText).limbs = (result zeroLimbs longRun).2.limbs := by
  have hdigits : zeroLimbs.all isDigit = true := by decide
  have hshort : withoutLeadingZeros zeroLimbs = ascii "10000000000000000004000000000" := by decide
  obtain ⟨htext, hall, hlimbs⟩ := digits_exact hdigits longRun
  rw [hshort] at htext
  exact ⟨hdigits, htext, hall, hlimbs⟩

end Magnitude
end VolumeClaim
