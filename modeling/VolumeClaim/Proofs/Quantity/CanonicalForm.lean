import VolumeClaim.Proofs.Quantity.CanonicalText
import VolumeClaim.Proofs.Quantity.Denotation

/-!
# The canonical form

The canonical text depends on the number and on the family of units, not on how the literal was
spelled: a size has one form `m * 10^t` without factors of ten in `m`, and one whole number if
it is whole.  Conversely a text denotes one number only.

* `stripped_eq_of_size_eq`, `whole?_eq_of_size_eq` the two reduced forms are those of the size;
* `toText_eq_of_value_eq`  one text for a number in a family;
* `denotes_toText`         and one number for a text.
-/

namespace VolumeClaim.Quantity
open Text Grammar

/-! ## One text for a number -/

section
variable {a b : Quantity} (ha : a.WellFormed) (hb : b.WellFormed)
include ha hb

theorem stripped_eq_of_size_eq (hza : a.isZero = false) (hzb : b.isZero = false)
    (hs : a.size = b.size) : a.stripped = b.stripped := by
  obtain ⟨hca, hna, hva⟩ := stripped_spec ha hza
  obtain ⟨hcb, hnb, hvb⟩ := stripped_spec hb hzb
  rw [← hva, ← hvb] at hs
  have hab := isWhole_div_zpow_iff hna a.stripped.2 b.stripped.2
  have hba := isWhole_div_zpow_iff hnb b.stripped.2 a.stripped.2
  rw [hs, isWhole_div_zpow_iff hnb] at hab
  rw [← hs, isWhole_div_zpow_iff hna] at hba
  have htens : a.stripped.2 = b.stripped.2 :=
    le_antisymm (hba.mp le_rfl) (hab.mp le_rfl)
  rw [htens] at hs
  have hvalue : a.stripped.1.value = b.stripped.1.value := by
    exact_mod_cast mul_right_cancel₀ (ten_zpow_pos _).ne' hs
  exact Prod.ext (Magnitude.eq_of_value_eq hca hcb hvalue) htens

theorem whole?_eq_of_size_eq (hs : a.size = b.size) : a.whole? = b.whole? := by
  cases hwa : a.whole? with
  | none =>
    cases hwb : b.whole? with
    | none => rfl
    | some m =>
      obtain ⟨-, hvb⟩ := whole?_eq_some hb hwb
      rw [← hs] at hvb
      exact absurd ⟨m.value, hvb.symm⟩ (whole?_eq_none ha hwa)
  | some n =>
    obtain ⟨hca, hva⟩ := whole?_eq_some ha hwa
    cases hwb : b.whole? with
    | none =>
      rw [hs] at hva
      exact absurd ⟨n.value, hva.symm⟩ (whole?_eq_none hb hwb)
    | some m =>
      obtain ⟨hcb, hvb⟩ := whole?_eq_some hb hwb
      rw [← hs, ← hva] at hvb
      have hvalue : n.value = m.value := by exact_mod_cast hvb.symm
      rw [Magnitude.eq_of_value_eq hca hcb hvalue]

theorem toText_eq_of_value_eq (hf : a.family = b.family) (hv : a.value = b.value) :
    a.toText = b.toText := by
  have hzero : a.isZero = b.isZero := by
    rw [Bool.eq_iff_iff, ← value_eq_zero_iff ha, ← value_eq_zero_iff hb, hv]
  have hnegative : a.negative = b.negative := by
    rw [Bool.eq_iff_iff, ← value_neg_iff ha, ← value_neg_iff hb, hv]
  have hsize : a.size = b.size := by rw [← abs_value, ← abs_value, hv]
  cases hz : a.isZero with
  | true =>
    have hzb : b.isZero = true := by rw [← hzero, hz]
    rw [toText_of_isZero hz, toText_of_isZero hzb]
  | false =>
    have hzb : b.isZero = false := by rw [← hzero, hz]
    rw [toText_of_not_isZero hz, toText_of_not_isZero hzb, hnegative]
    unfold unsignedText
    rw [stripped_eq_of_size_eq ha hb hz hzb hsize, whole?_eq_of_size_eq ha hb hsize, hf]

end

/-! ## One number for a text -/

theorem denotes_toText {q : Quantity} (h : q.WellFormed) : Denotes q.toText q.value := by
  obtain ⟨l, htext, hvalue, -⟩ := exists_literal_toText h
  exact ⟨l, htext, hvalue⟩

theorem value_eq_of_toText_eq {a b : Quantity} (ha : a.WellFormed) (hb : b.WellFormed)
    (h : a.toText = b.toText) : a.value = b.value := by
  have hta := denotes_toText ha
  rw [h] at hta
  exact hta.unique (denotes_toText hb)

/-! ## Quantities that were read -/

/-- **The canonical text of a quantity that was read is its number, exactly, in the largest
unit of its ladder.** -/
theorem canonical_text_largest_unit {raw : Text} {q : Quantity} (h : parse raw = .ok q) :
    (q.value = 0 → q.toText = ascii "0") ∧
      (q.value ≠ 0 → ∃ (n : ℕ) (u : Suffix), q.WrittenIn u ∧
        q.toText = (if q.value < 0 then ascii "-" else []) ++ (decimal n ++ u.text) ∧
        (decimal n).head? ≠ some (byte '0') ∧ n * u.value = |q.value|) := by
  have hw := wellFormed_of_parse h
  constructor
  · intro hv
    rw [toText_of_isZero ((value_eq_zero_iff hw).mp hv)]
    rfl
  · intro hv
    have hz : q.isZero = false := by
      rw [ne_eq, value_eq_zero_iff hw, Bool.not_eq_true] at hv
      exact hv
    obtain ⟨u, ⟨n, htext, hvalue⟩, hu⟩ := unsignedText_eq hw hz
    have hn : n ≠ 0 := by
      rintro rfl
      have hpos := size_pos hw hz
      rw [← hvalue, Nat.cast_zero, zero_mul] at hpos
      exact lt_irrefl 0 hpos
    refine ⟨n, u, hu, ?_, head?_decimal_ne hn, ?_⟩
    · rw [toText_of_not_isZero hz, htext]
      simp only [value_neg_iff hw]
      rfl
    · rw [hvalue, abs_value]

theorem canonical_text_largest_unit_mebi : ∃ (q : Quantity) (n : ℕ) (u : Suffix),
    parse (ascii "-1.5Gi") = .ok q ∧ q.value ≠ 0 ∧ q.toText = ascii "-1536Mi" ∧
      q.WrittenIn u ∧
      q.toText = (if q.value < 0 then ascii "-" else []) ++ (decimal n ++ u.text) ∧
      (decimal n).head? ≠ some (byte '0') ∧ n * u.value = |q.value| := by
  have hq : parse (ascii "-1.5Gi") = .ok ⟨true, ⟨[15]⟩, -1, 30, .binarySI⟩ := rfl
  have hw := wellFormed_of_parse hq
  have hv : value ⟨true, ⟨[15]⟩, -1, 30, .binarySI⟩ ≠ 0 := fun e =>
    absurd ((value_eq_zero_iff hw).mp e) (by decide)
  obtain ⟨n, u, hu⟩ := (canonical_text_largest_unit hq).2 hv
  exact ⟨_, n, u, hq, hv, rfl, hu⟩

/-- **Within a family of units two quantities that were read are equal exactly if their canonical
texts are**; across families equal texts still mean equal quantities. -/
theorem canonical_text_eq_iff {ra rb : Text} {a b : Quantity} (ha : parse ra = .ok a)
    (hb : parse rb = .ok b) :
    (a.family = b.family → (a.eq b = true ↔ a.toText = b.toText)) ∧
      (a.toText = b.toText → a.value = b.value ∧ a.eq b = true) := by
  have wa := wellFormed_of_parse ha
  have wb := wellFormed_of_parse hb
  rw [eq_iff wa wb]
  refine ⟨fun hf => ⟨toText_eq_of_value_eq wa wb hf, value_eq_of_toText_eq wa wb⟩, fun ht => ?_⟩
  have hv := value_eq_of_toText_eq wa wb ht
  exact ⟨hv, hv⟩

theorem canonical_text_eq_iff_gibi : ∃ a b : Quantity,
    parse (ascii "1024Mi") = .ok a ∧ parse (ascii "+01.00Gi") = .ok b ∧ a.family = b.family ∧
      a.toText = ascii "1Gi" ∧ b.toText = ascii "1Gi" ∧ (a.eq b = true ↔ a.toText = b.toText) ∧
      a.value = b.value := by
  have ha : parse (ascii "1024Mi") = .ok ⟨false, ⟨[1024]⟩, 0, 20, .binarySI⟩ := rfl
  have hb : parse (ascii "+01.00Gi") = .ok ⟨false, ⟨[100]⟩, -2, 30, .binarySI⟩ := rfl
  obtain ⟨hiff, heq⟩ := canonical_text_eq_iff ha hb
  exact ⟨_, _, ha, hb, rfl, rfl, rfl, hiff rfl, (heq rfl).1⟩

end VolumeClaim.Quantity
