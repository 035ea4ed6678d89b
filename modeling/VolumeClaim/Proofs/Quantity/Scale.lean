import VolumeClaim.Keyed
import VolumeClaim.Quantity.Literal
import VolumeClaim.Proofs.Quantity.Grammar

/-!
# Reading suffixes

* `exponentValue?_eq_some_iff` digits are cut off early only where the whole of them is too large;
* `parse?_of_bounded`, `parse?_of_not_bounded` a suffix of the grammar is read as `scaleOf` says
  if its exponent is bounded, and refused otherwise;
* `suffix_of_parse?`  nothing else is read, apart from a single zero byte;
* `bounds_of_parse?`  so the powers of a scale that was read are small.
-/

namespace VolumeClaim.Quantity
open Text Grammar

/-! ## Exponents -/

theorem exponentValue?_concat (t : Text) (d : UInt8) :
    exponentValue? (t ++ [d]) = (exponentValue? t).bind fun v =>
      if isDigit d then
        if 10 * v + digitValue d ≤ maxExponent then some (10 * v + digitValue d) else none
      else none := by
  unfold exponentValue?
  simp only [List.foldlM_append, List.foldlM_cons, List.foldlM_nil, bind_pure]
  rfl

theorem exponentValue?_append_of_none {s : Text} (h : exponentValue? s = none) (t : Text) :
    exponentValue? (s ++ t) = none := by
  unfold exponentValue? at h ⊢
  rw [List.foldlM_append, h]
  rfl

/-- the digits are cut off early only where the whole of them is too large -/
theorem exponentValue?_eq_some_iff {t : Text} {v : ℕ} : exponentValue? t = some v ↔
    t.all isDigit = true ∧ decimalValue t ≤ 1024 ∧ v = decimalValue t := by
  induction t using List.reverseRecOn generalizing v with
  | nil =>
    have : exponentValue? [] = some 0 := rfl
    rw [this, decimalValue_nil]
    simp [eq_comm]
  | append_singleton t d ih =>
    rw [exponentValue?_concat, decimalValue_concat, List.all_append, Option.bind_eq_some_iff]
    have hmax : maxExponent = 1024 := rfl
    constructor
    · rintro ⟨u, hu, h⟩
      obtain ⟨ht, hle, rfl⟩ := ih.mp hu
      split at h
      · rename_i hd
        split at h
        · rename_i hle'
          cases h
          rw [hmax] at hle'
          exact ⟨by simp [ht, hd], hle', rfl⟩
        · cases h
      · cases h
    · rintro ⟨hall, hle, rfl⟩
      simp only [Bool.and_eq_true, List.all_cons, List.all_nil, Bool.and_true] at hall
      refine ⟨decimalValue t, ih.mpr ⟨hall.1, by omega, rfl⟩, ?_⟩
      rw [if_pos hall.2, hmax, if_pos hle]

theorem exponent?_of_bounded (s : Sign) (d : Digits) (h : d.value ≤ 1024) :
    exponent? (s.text ++ d.text) = some (s.factor * d.value) := by
  have hv : exponentValue? d.text = some d.value :=
    exponentValue?_eq_some_iff.mpr ⟨d.all_digits, h, rfl⟩
  unfold exponent?
  rw [readSign_digits]
  dsimp only
  rw [if_neg d.ne_nil, hv]
  cases s <;> simp [Sign.factor]

theorem exponent?_of_not_bounded (s : Sign) (d : Digits) (h : ¬ d.value ≤ 1024) :
    exponent? (s.text ++ d.text) = none := by
  have hv : exponentValue? d.text = none := by
    rw [Option.eq_none_iff_forall_ne_some]
    intro v hv
    exact h (exponentValue?_eq_some_iff.mp hv).2.1
  unfold exponent?
  rw [readSign_digits]
  dsimp only
  rw [if_neg d.ne_nil, hv]
  rfl

theorem exponent_of_exponent? {t : Text} {k : ℤ} (h : exponent? t = some k) :
    ∃ (s : Sign) (d : Digits), t = s.text ++ d.text ∧ d.value ≤ 1024 ∧ k = s.factor * d.value := by
  unfold exponent? at h
  cases hr : readSign t with
  | mk negative digits =>
    obtain ⟨s, ht, hs⟩ := sign_of_readSign hr
    rw [hr] at h
    dsimp only at h
    split at h
    · cases h
    · rename_i hne
      obtain ⟨v, hv, hk⟩ := Option.map_eq_some_iff.mp h
      obtain ⟨hall, hle, rfl⟩ := exponentValue?_eq_some_iff.mp hv
      refine ⟨s, ⟨digits, hne, hall⟩, ht, hle, ?_⟩
      rw [← hk, hs]
      cases s <;> simp [Sign.factor, Digits.value]

/-! ## Suffixes -/

/-- what a suffix of the grammar is read as -/
def scaleOf : Suffix → Scale
  | .binary u => ⟨.binarySI, 0, 10 * u.power⟩
  | .decimal u => ⟨.decimalSI, u.power, 0⟩
  | .exponent _ sign digits => ⟨.decimalExponent, sign.factor * digits.value, 0⟩

theorem value_scaleOf (s : Suffix) :
    s.value = 10 ^ (scaleOf s).tens * 2 ^ (scaleOf s).twos := by
  cases s with
  | binary u =>
    show (1024 : ℚ) ^ u.power = 10 ^ (0 : ℤ) * 2 ^ (10 * u.power)
    rw [pow_mul, zpow_zero, one_mul]
    norm_num
  | decimal u => exact (mul_one _).symm
  | exponent mark sign digits => exact (mul_one _).symm

/-- every binary suffix ends in a letter, so no exponent is taken for one -/
theorem binaryScale?_exponent (mark : Mark) (s : Sign) (d : Digits) :
    binaryScale? (Suffix.exponent mark s d).text = none := by
  unfold binaryScale?
  rw [Option.map_eq_none_iff, List.idxOf?_eq_none_iff]
  intro hmem
  have hlast : ∀ t ∈ binarySuffixes, t.getLast? = some (byte 'i') := by decide
  have hi := hlast _ hmem
  have ht : (Suffix.exponent mark s d).text = (mark.byte :: s.text) ++ d.text := rfl
  rw [ht, List.getLast?_append_of_ne_nil _ d.ne_nil] at hi
  have hd := List.all_eq_true.mp d.all_digits _ (List.mem_of_getLast? hi)
  exact absurd hd (by decide)

theorem parse?_exponent (mark : Mark) (s : Sign) (d : Digits) :
    Scale.parse? (Suffix.exponent mark s d).text =
      (exponent? (s.text ++ d.text)).map fun tens => ⟨.decimalExponent, tens, 0⟩ := by
  have hb := binaryScale?_exponent mark s d
  have hmark : mark.byte = byte 'e' ∨ mark.byte = byte 'E' := by cases mark <;> decide
  have htext : (Suffix.exponent mark s d).text = mark.byte :: (s.text ++ d.text) := rfl
  rw [htext] at hb ⊢
  cases hsd : s.text ++ d.text with
  | nil => exact absurd (List.append_eq_nil_iff.mp hsd).2 d.ne_nil
  | cons b rest =>
    rw [hsd] at hb
    unfold Scale.parse?
    rw [hb]
    exact if_pos hmark

theorem parse?_of_bounded (s : Suffix) (h : s.Bounded) : Scale.parse? s.text = some (scaleOf s) := by
  cases s with
  | binary u => cases u <;> rfl
  | decimal u => cases u <;> rfl
  | exponent mark sign digits =>
    rw [parse?_exponent, exponent?_of_bounded sign digits h]
    rfl

theorem parse?_of_not_bounded (s : Suffix) (h : ¬ s.Bounded) : Scale.parse? s.text = none := by
  cases s with
  | binary u => exact absurd trivial h
  | decimal u => exact absurd trivial h
  | exponent mark sign digits =>
    rw [parse?_exponent, exponent?_of_not_bounded sign digits h]
    rfl

theorem suffix_of_binaryScale? {t : Text} {scale : Scale} (h : binaryScale? t = some scale) :
    ∃ u : BinaryUnit, t = u.text ∧ scale = scaleOf (.binary u) := by
  obtain ⟨i, hi, rfl⟩ := Option.map_eq_some_iff.mp h
  obtain ⟨hlt, rfl, -⟩ := List.idxOf?_eq_some_iff.mp hi
  have hlt : i < 6 := hlt
  interval_cases i
  · exact ⟨.kibi, rfl, rfl⟩
  · exact ⟨.mebi, rfl, rfl⟩
  · exact ⟨.gibi, rfl, rfl⟩
  · exact ⟨.tebi, rfl, rfl⟩
  · exact ⟨.pebi, rfl, rfl⟩
  · exact ⟨.exbi, rfl, rfl⟩

theorem unit_of_mem_decimalSuffixes :
    ∀ e ∈ decimalSuffixes, ∃ u : DecimalUnit, [e.1] = u.text ∧ e.2 = u.power := by
  simp only [decimalSuffixes, List.forall_mem_cons]
  exact ⟨⟨.nano, rfl, rfl⟩, ⟨.micro, rfl, rfl⟩, ⟨.milli, rfl, rfl⟩, ⟨.kilo, rfl, rfl⟩,
    ⟨.kiloUpper, rfl, rfl⟩, ⟨.mega, rfl, rfl⟩, ⟨.giga, rfl, rfl⟩, ⟨.tera, rfl, rfl⟩,
    ⟨.peta, rfl, rfl⟩, ⟨.exa, rfl, rfl⟩, nofun⟩

/-- a single byte is a decimal suffix, or the zero byte, which is read as no suffix -/
theorem suffix_of_byteScale? {b : UInt8} {scale : Scale} (h : byteScale? b = some scale) :
    (∃ u : DecimalUnit, [b] = u.text ∧ scale = scaleOf (.decimal u)) ∨
      b = 0 ∧ scale = scaleOf (.decimal .one) := by
  unfold byteScale? at h
  split at h
  · rename_i hb
    cases h
    exact .inr ⟨hb, rfl⟩
  · obtain ⟨tens, ht, rfl⟩ := Option.map_eq_some_iff.mp h
    obtain ⟨u, hu, hp⟩ := unit_of_mem_decimalSuffixes _ (Keyed.mem_of_lookup_eq_some ht)
    have hp : tens = u.power := hp
    refine .inl ⟨u, hu, ?_⟩
    rw [hp]
    rfl

/-- only suffixes of the grammar are read, apart from a zero byte -/
theorem suffix_of_parse? {t : Text} {scale : Scale} (h : Scale.parse? t = some scale) :
    (∃ s : Suffix, s.Bounded ∧ t = s.text ∧ scale = scaleOf s) ∨
      t = [0] ∧ scale = scaleOf (.decimal .one) := by
  unfold Scale.parse? at h
  split at h
  · rename_i found hfound
    cases h
    obtain ⟨u, ht, hs⟩ := suffix_of_binaryScale? hfound
    exact .inl ⟨.binary u, trivial, ht, hs⟩
  · split at h
    · cases h
      exact .inl ⟨.decimal .one, trivial, rfl, rfl⟩
    · rename_i b
      rcases suffix_of_byteScale? h with ⟨u, ht, hs⟩ | ⟨rfl, hs⟩
      · exact .inl ⟨.decimal u, trivial, ht, hs⟩
      · exact .inr ⟨rfl, hs⟩
    · rename_i b rest _
      split at h
      · rename_i hmark
        obtain ⟨k, hk, rfl⟩ := Option.map_eq_some_iff.mp h
        obtain ⟨s, d, rfl, hle, rfl⟩ := exponent_of_exponent? hk
        left
        rcases hmark with rfl | rfl
        · exact ⟨.exponent .lower s d, hle, rfl, rfl⟩
        · exact ⟨.exponent .upper s d, hle, rfl, rfl⟩
      · cases h

/-! ## The size of a scale -/

theorem bounds_scaleOf {s : Suffix} (h : s.Bounded) :
    -1024 ≤ (scaleOf s).tens ∧ (scaleOf s).tens ≤ 1024 ∧ (scaleOf s).twos ≤ 60 := by
  cases s with
  | binary u => cases u <;> decide
  | decimal u => cases u <;> decide
  | exponent mark sign digits =>
    have hle : digits.value ≤ 1024 := h
    show -1024 ≤ sign.factor * (digits.value : ℤ) ∧ sign.factor * (digits.value : ℤ) ≤ 1024 ∧ 0 ≤ 60
    cases sign <;> simp only [Sign.factor] <;> omega

theorem bounds_of_parse? {t : Text} {s : Scale} (h : Scale.parse? t = some s) :
    -1024 ≤ s.tens ∧ s.tens ≤ 1024 ∧ s.twos ≤ 60 := by
  rcases suffix_of_parse? h with ⟨x, hx, -, rfl⟩ | ⟨-, rfl⟩
  · exact bounds_scaleOf hx
  · decide

end VolumeClaim.Quantity
