import VolumeClaim.Proofs.Quantity.Reading

/-!
# What a text denotes

A text denotes a number if it is a literal of the grammar, with an exponent of any size.  The
reader refuses literals with large exponents, but its first steps do not depend on the suffix:
they take every literal apart in one way only.

* `value_eq_of_text_eq_suffix` suffixes that are spelled alike are worth the same;
* `value_eq_of_text_eq`        and so are literals;
* `Denotes.unique`             hence a text denotes one number at most.
-/

namespace VolumeClaim.Grammar
open Text Quantity

theorem Sign.factor_eq {s s' : Sign} (h : decide (s = .minus) = decide (s' = .minus)) :
    s.factor = s'.factor := by
  have hfactor : ∀ s : Sign, s.factor = if decide (s = .minus) then -1 else 1 := by
    intro s
    cases s <;> rfl
  rw [hfactor, hfactor, h]

/-- the exponent is found again behind its mark -/
theorem value_eq_of_text_eq_exponent {mark mark' : Mark} {s s' : Sign} {d d' : Digits}
    (h : (Suffix.exponent mark s d).text = (Suffix.exponent mark' s' d').text) :
    (Suffix.exponent mark s d).value = (Suffix.exponent mark' s' d').value := by
  have htail : s.text ++ d.text = s'.text ++ d'.text := (List.cons.inj h).2
  have hread := readSign_digits s d
  rw [htail, readSign_digits s' d'] at hread
  obtain ⟨hsign, hdigits⟩ := Prod.mk.inj hread
  show (10 : ℚ) ^ (s.factor * (decimalValue d.text : ℤ)) =
    10 ^ (s'.factor * (decimalValue d'.text : ℤ))
  rw [Sign.factor_eq hsign, hdigits]

/-- bounded suffixes have the scale that is read, the others are exponents -/
theorem value_eq_of_text_eq_suffix {s s' : Suffix} (h : s.text = s'.text) :
    s.value = s'.value := by
  by_cases hs : s.Bounded
  · have hread := parse?_of_bounded s hs
    by_cases hs' : s'.Bounded
    · rw [h, parse?_of_bounded s' hs'] at hread
      rw [value_scaleOf, value_scaleOf, Option.some_inj.mp hread]
    · rw [h, parse?_of_not_bounded s' hs'] at hread
      cases hread
  · have hread := parse?_of_not_bounded s hs
    by_cases hs' : s'.Bounded
    · rw [h, parse?_of_bounded s' hs'] at hread
      cases hread
    · cases s with
      | binary u => exact absurd trivial hs
      | decimal u => exact absurd trivial hs
      | exponent mark sign digits =>
        cases s' with
        | binary u => exact absurd trivial hs'
        | decimal u => exact absurd trivial hs'
        | exponent mark' sign' digits' => exact value_eq_of_text_eq_exponent h

theorem value_eq_of_text_eq {l l' : Literal} (h : l.text = l'.text) : l.value = l'.value := by
  have hsign := readSign_number l.sign l.number l.suffix.text
  have hsign' := readSign_number l'.sign l'.number l'.suffix.text
  change readSign l.text = _ at hsign
  change readSign l'.text = _ at hsign'
  rw [h, hsign'] at hsign
  obtain ⟨hminus, hrest⟩ := Prod.mk.inj hsign
  have hnumber := read_number l.number (stops_suffix l.suffix) (head?_suffix_ne_point l.suffix)
  rw [← hrest, read_number l'.number (stops_suffix l'.suffix)
    (head?_suffix_ne_point l'.suffix)] at hnumber
  obtain ⟨hnumeral, hsuffix⟩ := Prod.mk.inj hnumber
  unfold Literal.value
  rw [Sign.factor_eq hminus, value_numeralOf, value_numeralOf, hnumeral,
    value_eq_of_text_eq_suffix hsuffix]

/-- the text is a literal for the number -/
def Denotes (t : Text) (x : ℚ) : Prop := ∃ l : Literal, t = l.text ∧ l.value = x

theorem Denotes.unique {t : Text} {x y : ℚ} (hx : Denotes t x) (hy : Denotes t y) : x = y := by
  obtain ⟨l, ht, rfl⟩ := hx
  obtain ⟨l', ht', rfl⟩ := hy
  exact value_eq_of_text_eq (ht.symm.trans ht')

end VolumeClaim.Grammar
