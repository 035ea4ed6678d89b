import VolumeClaim.Proofs.Quantity.Unit

/-!
# The canonical text is a literal

The canonical text is a sign, a whole number and the largest unit that leaves it whole, and so a
literal of the grammar (`exists_literal_toText`) that denotes the number of the quantity.  Its
exponent can leave the bound under which literals are read: `InRange` says of which numbers that
is not so.

* `exponentText_eq`, `suffixText_eq`, `binaryText_eq` the three forms, each with its unit;
* `unsignedText_eq`     and so the text of a quantity is written in its unit;
* `bounded_iff_inRange` the range, by the unit.
-/

namespace VolumeClaim.Quantity
open Text Grammar

/-! ## Renderings of a size -/

theorem floorToThree_le (k : ℤ) : floorToThree k ≤ k := by
  unfold floorToThree
  omega

theorem scaledText_eq {m : Magnitude} (hc : m.Canonical) (tens scale : ℤ) :
    scaledText m tens scale = decimal (m.value * 10 ^ (tens - scale).toNat) := by
  unfold scaledText
  rw [Magnitude.toText_eq (Magnitude.canonical_mulPow10 hc _), Magnitude.value_mulPow10 hc]

theorem scaled_mul_unit (m : ℕ) {tens scale : ℤ} (hle : scale ≤ tens) :
    ((m * 10 ^ (tens - scale).toNat : ℕ) : ℚ) * 10 ^ scale = m * 10 ^ tens := by
  obtain ⟨j, hj⟩ := Int.eq_ofNat_of_zero_le (sub_nonneg.mpr hle)
  have ht : tens = scale + j := eq_add_of_sub_eq' hj
  rw [hj, ht, mul_zpow_add_natCast]
  push_cast
  rfl

/-- the text is a whole number without leading zeros and a unit, and so many units make the
size -/
def Counts (t : Text) (u : Suffix) (x : ℚ) : Prop :=
  ∃ n : ℕ, t = decimal n ++ u.text ∧ n * u.value = x

section
variable {m : Magnitude} (hc : m.Canonical) (tens : ℤ)
include hc

theorem exponentText_eq :
    Counts (exponentText m tens) (exponentUnit (floorToThree tens)) (m.value * 10 ^ tens) := by
  refine ⟨m.value * 10 ^ (tens - floorToThree tens).toNat, ?_, ?_⟩
  · unfold exponentText
    rw [scaledText_eq hc, text_exponentUnit]
  · rw [value_exponentUnit]
    exact scaled_mul_unit _ (floorToThree_le tens)

/-- the suffix form, where there is a suffix that is fine enough -/
theorem suffixText_of_suffixScale_le (hle : suffixScale tens ≤ tens) :
    ∃ d : DecimalUnit, d ≠ .kiloUpper ∧ d.power = suffixScale tens ∧
      Counts (suffixText m tens) (.decimal d) (m.value * 10 ^ tens) := by
  obtain ⟨j, hj⟩ : ∃ j : ℤ, suffixScale tens = 3 * j := by
    unfold suffixScale floorToThree
    rcases le_total (tens / 3) 6 with h6 | h6
    · rcases le_total (-3) (tens / 3) with h3 | h3
      · exact ⟨tens / 3, by omega⟩
      · exact ⟨-3, by omega⟩
    · exact ⟨6, by omega⟩
  have hbounds : -9 ≤ suffixScale tens ∧ suffixScale tens ≤ 18 := by
    unfold suffixScale
    omega
  obtain ⟨d, hd, htext, hpower⟩ := exists_decimalUnit (j := j) (by omega) (by omega)
  refine ⟨d, hd, hpower.trans hj.symm, m.value * 10 ^ (tens - suffixScale tens).toNat, ?_, ?_⟩
  · unfold suffixText
    rw [if_neg (not_lt.mpr hle), scaledText_eq hc, hj]
    show _ = _ ++ d.text
    rw [htext]
  · show (_ : ℚ) * 10 ^ d.power = _
    rw [hpower, ← hj]
    exact scaled_mul_unit _ hle

theorem binaryText_eq (hm : m.value ≠ 0) :
    ∃ u, Counts (binaryText m) u m.value ∧ Largest binaryUnits m.value u := by
  obtain ⟨hle, hcan, hvalue, hmax⟩ := stripKibi_spec 6 hc
  obtain ⟨u, hu, htext, hunit⟩ := exists_binaryUnit (i := (stripKibi 6 m).1) hle
  refine ⟨u, ⟨(stripKibi 6 m).2.value, ?_, ?_⟩, ?_⟩
  · show (stripKibi 6 m).2.toText ++ binarySuffix (stripKibi 6 m).1 = _
    rw [Magnitude.toText_eq hcan, htext]
  · rw [hunit, ← hvalue]
    push_cast
    rfl
  · exact largest_binary hu hunit hvalue fun hlt => hmax hlt hm

/-- the suffix form, and below nano the exponent form -/
theorem suffixText_eq (hm : ¬ 10 ∣ m.value) : ∃ u,
    Counts (suffixText m tens) u (m.value * 10 ^ tens) ∧
      (Largest decimalUnits (m.value * 10 ^ tens) u ∨
        (∀ w ∈ decimalUnits, ¬ IsWhole (m.value * 10 ^ tens / w.value)) ∧
          Largest exponentUnits (m.value * 10 ^ tens) u) := by
  by_cases hle : suffixScale tens ≤ tens
  · obtain ⟨d, hd, hpower, hcounts⟩ := suffixText_of_suffixScale_le hc tens hle
    exact ⟨.decimal d, hcounts, .inl (largest_decimal hm tens hd hpower hle)⟩
  · have hlt : tens < suffixScale tens := not_le.mp hle
    refine ⟨exponentUnit (floorToThree tens), ?_, .inr ⟨?_, largest_exponentUnit hm tens⟩⟩
    · unfold suffixText
      rw [if_pos hlt]
      exact exponentText_eq hc tens
    · exact not_isWhole_of_lt_suffixScale hm tens hlt

end

/-! ## The whole text -/

theorem isWhole_value_mul (q : Quantity) (x : ℚ) :
    IsWhole (q.value * x) ↔ IsWhole (q.size * x) := by
  unfold value
  split
  · rw [neg_mul, isWhole_neg]
  · rfl

theorem isWhole_value_iff (q : Quantity) : IsWhole q.value ↔ IsWhole q.size := by
  have h := isWhole_value_mul q 1
  rw [mul_one, mul_one] at h
  exact h

theorem toText_of_isZero {q : Quantity} (hz : q.isZero = true) : q.toText = decimal 0 := by
  unfold toText
  rw [if_pos hz]

theorem toText_of_not_isZero {q : Quantity} (hz : q.isZero = false) :
    q.toText = (if q.negative then [byte '-'] else []) ++ q.unsignedText := by
  unfold toText
  rw [hz]
  rfl

section
variable {q : Quantity} (h : q.WellFormed)
include h

/-- the sign apart, the text is a whole number of units -/
theorem unsignedText_eq (hz : q.isZero = false) :
    ∃ u, Counts q.unsignedText u q.size ∧ q.WrittenIn u := by
  obtain ⟨hc, hnot, hsize⟩ := stripped_spec h hz
  have hsuffix : q.Suffixed → ∃ u,
      Counts (suffixText q.stripped.1 q.stripped.2) u q.size ∧ q.WrittenIn u := by
    intro hs
    obtain ⟨u, hcounts, hlargest⟩ := suffixText_eq hc q.stripped.2 hnot
    rw [hsize] at hcounts hlargest
    rw [← abs_value q] at hlargest
    refine ⟨u, hcounts, ?_⟩
    rcases hlargest with hlargest | ⟨hnone, hlargest⟩
    · exact .decimal hs hlargest
    · exact .fine hs hnone hlargest
  unfold unsignedText
  cases hf : q.family with
  | decimalExponent =>
    have hcounts := exponentText_eq hc q.stripped.2
    have hlargest := largest_exponentUnit hnot q.stripped.2
    rw [hsize] at hcounts hlargest
    rw [← abs_value q] at hlargest
    exact ⟨_, hcounts, .exponent hf hlargest⟩
  | decimalSI => exact hsuffix (.inl hf)
  | binarySI =>
    cases hw : q.whole? with
    | none =>
      have hnot := whole?_eq_none h hw
      rw [← isWhole_value_iff] at hnot
      exact hsuffix (.inr ⟨hf, hnot⟩)
    | some whole =>
      obtain ⟨hcw, hvw⟩ := whole?_eq_some h hw
      have hne : whole.value ≠ 0 := by
        intro e
        have hpos := size_pos h hz
        rw [← hvw, e, Nat.cast_zero] at hpos
        exact lt_irrefl 0 hpos
      obtain ⟨u, hcounts, hlargest⟩ := binaryText_eq hcw hne
      have hwhole : IsWhole q.value := by
        rw [isWhole_value_iff, ← hvw]
        exact isWhole_natCast _
      rw [hvw] at hcounts hlargest
      rw [← abs_value q] at hlargest
      exact ⟨u, hcounts, .binary hf hwhole hlargest⟩

end

/-! ## The range -/

/-- no finer than `10^-1023`, and not a multiple of `10^1026` in the exponent family -/
def InRange (q : Quantity) : Prop :=
  IsWhole (q.value * 10 ^ 1023) ∧
    (q.family = .decimalExponent → q.value ≠ 0 → ¬ IsWhole (q.value / 10 ^ 1026))

theorem isWhole_value_fine (q : Quantity) :
    IsWhole (q.value * 10 ^ 1023) ↔ IsWhole (|q.value| / 10 ^ (3 * (-341 : ℤ))) := by
  have hk : 3 * (-341 : ℤ) = -(1023 : ℕ) := rfl
  rw [isWhole_value_mul, abs_value, hk, zpow_neg, zpow_natCast, div_inv_eq_mul]

theorem isWhole_value_coarse (q : Quantity) :
    IsWhole (q.value / 10 ^ 1026) ↔ IsWhole (|q.value| / 10 ^ (3 * (342 : ℤ))) := by
  have hk : 3 * (342 : ℤ) = (1026 : ℕ) := rfl
  rw [div_eq_mul_inv, isWhole_value_mul, abs_value, hk, zpow_natCast, div_eq_mul_inv]

theorem bounded_of_mem_decimalUnits {u : Suffix} (hu : u ∈ decimalUnits) : u.Bounded := by
  obtain ⟨d, -, rfl⟩ := hu
  trivial

theorem bounded_of_mem_binaryUnits {u : Suffix} (hu : u ∈ binaryUnits) : u.Bounded := by
  rcases hu with rfl | ⟨b, rfl⟩ <;> trivial

/-- the text is in range if its unit is one that literals may carry -/
theorem bounded_iff_inRange {q : Quantity} {u : Suffix} (hne : q.value ≠ 0)
    (h : q.WrittenIn u) : u.Bounded ↔ q.InRange := by
  unfold InRange
  cases h with
  | binary hf hwhole hlargest =>
    have hb := bounded_of_mem_binaryUnits hlargest.mem
    have he : q.family ≠ .decimalExponent := by rw [hf]; exact nofun
    exact ⟨fun _ => ⟨isWhole_mul_pow hwhole _, fun hf => absurd hf he⟩, fun _ => hb⟩
  | exponent hf hlargest =>
    obtain ⟨j, rfl⟩ := hlargest.mem
    rw [bounded_exponentUnit, isWhole_value_fine, isWhole_value_coarse,
      hlargest.isWhole_div_iff, hlargest.isWhole_div_iff]
    constructor
    · intro hb
      exact ⟨by omega, fun _ _ => by omega⟩
    · rintro ⟨hlow, hhigh⟩
      have hhigh := hhigh hf hne
      omega
  | decimal hs hlargest =>
    have hb := bounded_of_mem_decimalUnits hlargest.mem
    have hwhole := hlargest.whole
    obtain ⟨d, -, rfl⟩ := hlargest.mem
    obtain ⟨j, hj, hlow, -⟩ := exists_eq_power d
    change IsWhole (_ / 10 ^ d.power) at hwhole
    rw [hj] at hwhole
    refine ⟨fun _ => ⟨?_, fun hf => absurd hf hs.ne_exponent⟩, fun _ => hb⟩
    rw [isWhole_value_fine]
    exact isWhole_div_zpow_of_le hwhole (by omega)
  | fine hs hnone hlargest =>
    have hnano := hnone (.decimal .nano) ⟨.nano, nofun, rfl⟩
    obtain ⟨j, rfl⟩ := hlargest.mem
    change ¬ IsWhole (_ / 10 ^ (3 * (-3 : ℤ))) at hnano
    rw [hlargest.isWhole_div_iff] at hnano
    rw [bounded_exponentUnit, isWhole_value_fine, hlargest.isWhole_div_iff]
    constructor
    · intro hb
      exact ⟨by omega, fun hf => absurd hf hs.ne_exponent⟩
    · rintro ⟨hlow, -⟩
      omega

/-! ## The literal -/

/-- a canonical text is a literal with a whole number of units -/
theorem exists_wholeLiteral {q : Quantity} (h : q.WellFormed) (hz : q.isZero = false) :
    ∃ (n : ℕ) (u : Suffix), q.WrittenIn u ∧ n * u.value = q.size ∧
      q.toText = (wholeLiteral q.negative n u).text := by
  obtain ⟨u, ⟨n, htext, hvalue⟩, hu⟩ := unsignedText_eq h hz
  refine ⟨n, u, hu, hvalue, ?_⟩
  rw [text_wholeLiteral, ← htext, toText_of_not_isZero hz]

theorem exists_literal_toText {q : Quantity} (h : q.WellFormed) : ∃ l : Literal,
    q.toText = l.text ∧ l.value = q.value ∧ (l.Bounded ↔ q.InRange) := by
  cases hz : q.isZero with
  | true =>
    have hv := value_eq_zero h hz
    refine ⟨wholeLiteral false 0 (.decimal .one), ?_, ?_, fun _ => ⟨?_, ?_⟩, fun _ => trivial⟩
    · rw [toText_of_isZero hz]
      rfl
    · rw [value_wholeLiteral, hv]
      simp
    · rw [hv, zero_mul]
      exact isWhole_natCast 0
    · exact fun _ hne => absurd hv hne
  | false =>
    obtain ⟨n, u, hu, hvalue, htext⟩ := exists_wholeLiteral h hz
    refine ⟨wholeLiteral q.negative n u, htext, ?_,
      bounded_iff_inRange ((value_ne_zero_iff h).mpr hz) hu⟩
    rw [value_wholeLiteral, hvalue]
    rfl

end VolumeClaim.Quantity
