import VolumeClaim.Proofs.Text.Numeral

/-!
# Signed digits

The part that the grammars of literals share: strings of digits, and signs in front of them.

* `readSign_text`    a sign is told from what follows it;
* `sign_of_readSign` and whatever is read as a sign is one.
-/

namespace VolumeClaim.Grammar
open Text

structure Digits where
  text : Text
  ne_nil : text ≠ []
  all_digits : text.all isDigit = true

def Digits.value (d : Digits) : ℕ := decimalValue d.text

inductive Sign where
  | absent
  | plus
  | minus
  deriving DecidableEq

def Sign.text : Sign → Text
  | .absent => []
  | .plus => [byte '+']
  | .minus => [byte '-']

def Sign.factor : Sign → ℤ
  | .absent => 1
  | .plus => 1
  | .minus => -1

/-- what follows the sign must not look like one -/
theorem readSign_text (s : Sign) {t : Text} (h : ∀ b ∈ t.head?, b ≠ byte '-' ∧ b ≠ byte '+') :
    readSign (s.text ++ t) = (decide (s = .minus), t) := by
  cases s with
  | plus => exact readSign_plus t
  | minus => exact readSign_minus t
  | absent => exact readSign_of_unsigned h

/-- digits do not -/
theorem readSign_digits (s : Sign) (d : Digits) :
    readSign (s.text ++ d.text) = (decide (s = .minus), d.text) := by
  refine readSign_text s fun b hb => ?_
  have hd := List.all_eq_true.mp d.all_digits b (List.mem_of_mem_head? hb)
  constructor
  · rintro rfl
    exact absurd hd (by decide)
  · rintro rfl
    exact absurd hd (by decide)

theorem sign_of_readSign {t rest : Text} {negative : Bool} (h : readSign t = (negative, rest)) :
    ∃ s : Sign, t = s.text ++ rest ∧ negative = decide (s = .minus) := by
  cases t with
  | nil =>
    cases h
    exact ⟨.absent, rfl, rfl⟩
  | cons b t =>
    rw [readSign] at h
    split at h
    · rename_i hb
      cases h
      exact ⟨.minus, by rw [hb]; rfl, rfl⟩
    · split at h
      · rename_i hb
        cases h
        exact ⟨.plus, by rw [hb]; rfl, rfl⟩
      · cases h
        exact ⟨.absent, rfl, rfl⟩

theorem length_le_of_readSign {t rest : Text} {negative : Bool}
    (h : readSign t = (negative, rest)) : rest.length ≤ t.length := by
  obtain ⟨s, rfl, -⟩ := sign_of_readSign h
  rw [List.length_append]
  exact Nat.le_add_left _ _

end VolumeClaim.Grammar
