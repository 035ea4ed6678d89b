import VolumeClaim.Proofs.Quantity.CanonicalForm
import VolumeClaim.Proofs.Quantity.RoundTrip

/-!
# Canonical texts that stay as they are

A canonical text that is read again belongs to the family of its suffix, which need not be the
family of the quantity.  The unit of the text is still the right one, with one exception: a binary
quantity without a binary suffix is read as a decimal one, and thousands of bytes then get a suffix.

* `WrittenIn.unique`        a quantity has one unit;
* `exists_writtenIn_of_reread` what a canonical text is read as;
* `WrittenIn.of_family`     the unit is also that of the family it is read in;
* `toText_reread_iff`       so the text changes for `TurnsDecimal` quantities only.
-/

namespace VolumeClaim.Quantity
open Text Grammar

/-! ## One unit for a quantity -/

theorem suffix_value_pos (u : Suffix) : 0 < u.value := by
  cases u with
  | binary b => exact pow_pos (by norm_num) b.power
  | decimal d => exact ten_zpow_pos d.power
  | exponent mark sign digits => exact ten_zpow_pos _

theorem Largest.value_eq {units : Set Suffix} {x : ℚ} {u w : Suffix} (hu : Largest units x u)
    (hw : Largest units x w) : u.value = w.value :=
  le_antisymm (hw.le u hu.mem hu.whole) (hu.le w hw.mem hw.whole)

theorem ten_zpow_inj {j k : ℤ} (h : (10 : ℚ) ^ j = 10 ^ k) : j = k :=
  zpow_right_injective₀ (by norm_num) (by norm_num) h

theorem eq_of_mem_exponentUnits {u w : Suffix} (hu : u ∈ exponentUnits) (hw : w ∈ exponentUnits)
    (h : u.value = w.value) : u = w := by
  obtain ⟨i, rfl⟩ := hu
  obtain ⟨j, rfl⟩ := hw
  rw [value_exponentUnit, value_exponentUnit] at h
  rw [ten_zpow_inj h]

theorem eq_of_mem_decimalUnits {u w : Suffix} (hu : u ∈ decimalUnits) (hw : w ∈ decimalUnits)
    (h : u.value = w.value) : u = w := by
  obtain ⟨d, hd, rfl⟩ := hu
  obtain ⟨e, he, rfl⟩ := hw
  have hpower : d.power = e.power := ten_zpow_inj h
  cases d <;> cases e <;>
    first | rfl | exact absurd rfl hd | exact absurd rfl he | cases hpower

theorem eq_of_mem_binaryUnits {u w : Suffix} (hu : u ∈ binaryUnits) (hw : w ∈ binaryUnits)
    (h : u.value = w.value) : u = w := by
  have hinj : ∀ {i j : ℕ}, (1024 : ℚ) ^ i = 1024 ^ j → i = j :=
    fun h => pow_right_injective₀ (by norm_num) (by norm_num) h
  have hone : (Suffix.decimal .one).value = 1024 ^ 0 := rfl
  rcases hu with rfl | ⟨b, rfl⟩ <;> rcases hw with rfl | ⟨c, rfl⟩
  · rfl
  · rw [hone] at h
    have hpower : 0 = c.power := hinj h
    cases c <;> cases hpower
  · rw [hone] at h
    have hpower : b.power = 0 := hinj h
    cases b <;> cases hpower
  · have hpower : b.power = c.power := hinj h
    cases b <;> cases c <;> first | rfl | cases hpower

theorem WrittenIn.unique {q : Quantity} {u w : Suffix} (hu : q.WrittenIn u)
    (hw : q.WrittenIn w) : u = w := by
  cases hu with
  | binary hf hwhole hlargest =>
    cases hw with
    | binary _ _ hlargest' =>
      exact eq_of_mem_binaryUnits hlargest.mem hlargest'.mem (hlargest.value_eq hlargest')
    | exponent hf' => rw [hf] at hf'; cases hf'
    | decimal hs | fine hs => exact absurd hwhole (hs.not_isWhole hf)
  | exponent hf hlargest =>
    cases hw with
    | binary hf' => rw [hf] at hf'; cases hf'
    | exponent _ hlargest' =>
      exact eq_of_mem_exponentUnits hlargest.mem hlargest'.mem (hlargest.value_eq hlargest')
    | decimal hs | fine hs => exact absurd hf hs.ne_exponent
  | decimal hs hlargest =>
    cases hw with
    | binary hf hwhole => exact absurd hwhole (hs.not_isWhole hf)
    | exponent hf => exact absurd hf hs.ne_exponent
    | decimal _ hlargest' =>
      exact eq_of_mem_decimalUnits hlargest.mem hlargest'.mem (hlargest.value_eq hlargest')
    | fine _ hnone => exact absurd hlargest.whole (hnone _ hlargest.mem)
  | fine hs hnone hlargest =>
    cases hw with
    | binary hf hwhole => exact absurd hwhole (hs.not_isWhole hf)
    | exponent hf => exact absurd hf hs.ne_exponent
    | decimal _ hlargest' => exact absurd hlargest'.whole (hnone _ hlargest'.mem)
    | fine _ _ hlargest' =>
      exact eq_of_mem_exponentUnits hlargest.mem hlargest'.mem (hlargest.value_eq hlargest')

/-! ## The text by its unit -/

/-- quantities with one number and one unit have one text, whatever their families -/
theorem toText_eq_of_writtenIn {q r : Quantity} (hq : q.WellFormed) (hr : r.WellFormed)
    (hv : r.value = q.value) (hne : q.value ≠ 0) {u : Suffix} (hqu : q.WrittenIn u)
    (hru : r.WrittenIn u) : r.toText = q.toText := by
  have hrne : r.value ≠ 0 := hv ▸ hne
  obtain ⟨n, w, hw, hn, hqtext⟩ := exists_wholeLiteral hq ((value_ne_zero_iff hq).mp hne)
  obtain ⟨m, w', hw', hm, hrtext⟩ := exists_wholeLiteral hr ((value_ne_zero_iff hr).mp hrne)
  obtain rfl := hw.unique hqu
  obtain rfl := hw'.unique hru
  have hnegative : r.negative = q.negative := by
    rw [Bool.eq_iff_iff, ← value_neg_iff hr, ← value_neg_iff hq, hv]
  rw [← abs_value, hv, abs_value, ← hn] at hm
  have hmn : m = n := by exact_mod_cast mul_right_cancel₀ (suffix_value_pos w').ne' hm
  rw [hqtext, hrtext, hnegative, hmn]

theorem quantityOf_of_parse {l : Literal} {r : Quantity} (h : parse l.text = .ok r) :
    r = quantityOf l := by
  by_cases hb : l.Bounded
  · rw [parse_text_of_bounded l hb] at h
    exact (Except.ok.inj h).symm
  · rw [parse_text_of_not_bounded l hb] at h
    cases h

theorem value_of_reread {q r : Quantity} (h : q.WellFormed) (hr : parse q.toText = .ok r) :
    r.value = q.value :=
  ((readsBack_of_wellFormed h).2 r hr).1

/-- a canonical text is read in the family of its unit -/
theorem exists_writtenIn_of_reread {q r : Quantity} (h : q.WellFormed) (hne : q.value ≠ 0)
    (hr : parse q.toText = .ok r) : ∃ u, q.WrittenIn u ∧ r.family = u.family := by
  obtain ⟨n, u, hu, -, htext⟩ := exists_wholeLiteral h ((value_ne_zero_iff h).mp hne)
  rw [htext] at hr
  refine ⟨u, hu, ?_⟩
  rw [quantityOf_of_parse hr, family_quantityOf]
  rfl

/-! ## The text in the other family -/

/-- whole thousands of bytes that are no multiple of 1024, in the binary family -/
def TurnsDecimal (q : Quantity) : Prop :=
  q.family = .binarySI ∧ q.value ≠ 0 ∧ IsWhole (q.value / 1000) ∧ ¬ IsWhole (q.value / 1024)

theorem isWhole_abs_div (q : Quantity) (x : ℚ) : IsWhole (|q.value| / x) ↔ IsWhole (q.value / x) := by
  rw [abs_value, div_eq_mul_inv, div_eq_mul_inv, isWhole_value_mul]

theorem isWhole_of_div_pow {x : ℚ} {i : ℕ} (hi : 1 ≤ i) (h : IsWhole (x / 1024 ^ i)) :
    IsWhole (x / 1024) := by
  obtain ⟨k, rfl⟩ : ∃ k, i = k + 1 := ⟨i - 1, by omega⟩
  obtain ⟨n, hn⟩ := h
  refine ⟨n * 1024 ^ k, ?_⟩
  have hpos : (1024 : ℚ) ^ (k + 1) ≠ 0 := by positivity
  rw [div_eq_iff hpos] at hn
  rw [hn, pow_succ]
  push_cast
  field_simp

/-- without a factor of a thousand, no suffix is larger than none -/
theorem largest_decimal_one {x : ℚ} (hx : IsWhole x) (hk : ¬ IsWhole (x / 1000)) :
    Largest decimalUnits x (.decimal .one) := by
  have hone : (Suffix.decimal .one).value = 10 ^ (3 * 0 : ℤ) := rfl
  refine ⟨⟨.one, nofun, rfl⟩, ?_, ?_⟩
  · show IsWhole (x / (10 : ℚ) ^ (0 : ℤ))
    rw [zpow_zero, div_one]
    exact hx
  · rintro w ⟨d, -, rfl⟩ hw
    obtain ⟨j, hj, -, -⟩ := exists_eq_power d
    change IsWhole (x / 10 ^ d.power) at hw
    show (10 : ℚ) ^ d.power ≤ _
    rw [hj] at hw
    rw [hone, hj, ten_zpow_le_iff]
    by_contra hlt
    have hkilo : IsWhole (x / 10 ^ (3 * 1 : ℤ)) := isWhole_div_zpow_of_le hw (by omega)
    have hthousand : (10 : ℚ) ^ (3 * 1 : ℤ) = 1000 := by norm_num
    rw [hthousand] at hkilo
    exact hk hkilo

theorem largest_decimal_one_of_exponent {x : ℚ} (h : Largest exponentUnits x (exponentUnit 0)) :
    Largest decimalUnits x (.decimal .one) := by
  have hzero := h.whole
  have hkilo := (h.isWhole_div_iff (j := 0) 1).not.mpr (by omega)
  rw [value_exponentUnit, zpow_zero, div_one] at hzero
  have hthousand : (10 : ℚ) ^ (3 * 1 : ℤ) = 1000 := by norm_num
  rw [hthousand] at hkilo
  exact largest_decimal_one hzero hkilo

theorem family_exponentUnit {k : ℤ} (hk : k ≠ 0) : (exponentUnit k).family = .decimalExponent := by
  unfold exponentUnit
  rw [if_neg hk]
  rfl

section
variable {q r : Quantity} (hv : r.value = q.value)
include hv

/-- the unit of a quantity is its unit in the family of the unit, too -/
theorem WrittenIn.of_family {u : Suffix} (h : q.WrittenIn u) (hf : r.family = u.family)
    (hne : q.value ≠ 0) (hturns : ¬ q.TurnsDecimal) : r.WrittenIn u := by
  cases h with
  | binary hbinary hwhole hlargest =>
    rcases hlargest.mem with rfl | ⟨b, rfl⟩
    · -- no suffix, so a binary one would be too large
      have hkibi : ¬ IsWhole (q.value / 1024) := by
        rw [← isWhole_abs_div]
        intro hkibi
        have hle := hlargest.le (.binary .kibi) (.inr ⟨_, rfl⟩) (by
          show IsWhole (_ / 1024 ^ 1)
          rw [pow_one]
          exact hkibi)
        change (1024 : ℚ) ^ 1 ≤ 10 ^ (0 : ℤ) at hle
        norm_num at hle
      have hkilo : ¬ IsWhole (q.value / 1000) := fun hkilo =>
        hturns ⟨hbinary, hne, hkilo, hkibi⟩
      rw [← isWhole_abs_div, ← hv] at hkilo
      rw [isWhole_value_iff, ← abs_value, ← hv] at hwhole
      exact .decimal (.inl hf) (largest_decimal_one hwhole hkilo)
    · rw [← hv] at hwhole hlargest
      exact .binary hf hwhole hlargest
  | exponent hexponent hlargest =>
    rw [← hv] at hlargest
    obtain ⟨j, rfl⟩ := hlargest.mem
    by_cases hj : 3 * j = 0
    · rw [hj] at hf hlargest ⊢
      exact .decimal (.inl hf) (largest_decimal_one_of_exponent hlargest)
    · exact .exponent (hf.trans (family_exponentUnit hj)) hlargest
  | decimal hs hlargest =>
    rw [← hv] at hlargest
    obtain ⟨d, -, rfl⟩ := hlargest.mem
    exact .decimal (.inl hf) hlargest
  | fine hs hnone hlargest =>
    rw [← hv] at hlargest hnone
    obtain ⟨j, rfl⟩ := hlargest.mem
    have hj : 3 * j ≠ 0 := by
      intro hj
      rw [hj] at hlargest
      exact hnone _ (largest_decimal_one_of_exponent hlargest).mem
        (largest_decimal_one_of_exponent hlargest).whole
    exact .exponent (hf.trans (family_exponentUnit hj)) hlargest

end

/-- a quantity that turns decimal has no suffix -/
theorem TurnsDecimal.unit_eq {q : Quantity} {u : Suffix} (h : q.TurnsDecimal)
    (hu : q.WrittenIn u) : u = .decimal .one := by
  obtain ⟨hbinary, -, hkilo, hkibi⟩ := h
  have hwhole : IsWhole q.value := by
    have hmul := isWhole_mul_pow hkilo 3
    have hvalue : q.value / 1000 * 10 ^ 3 = q.value := by ring
    rw [hvalue] at hmul
    exact hmul
  cases hu with
  | binary _ _ hlargest =>
    rcases hlargest.mem with rfl | ⟨b, rfl⟩
    · rfl
    · have hunit := hlargest.whole
      change IsWhole (_ / 1024 ^ b.power) at hunit
      rw [isWhole_abs_div] at hunit
      have hpower : 1 ≤ b.power := by cases b <;> decide
      exact absurd (isWhole_of_div_pow hpower hunit) hkibi
  | exponent hf => rw [hbinary] at hf; cases hf
  | decimal hs | fine hs => exact absurd hwhole (hs.not_isWhole hbinary)

/-- read as a decimal quantity it has one -/
theorem TurnsDecimal.toText_ne {q r : Quantity} (h : q.TurnsDecimal) (hq : q.WellFormed)
    (hr : parse q.toText = .ok r) : r.toText ≠ q.toText := by
  have hne := h.2.1
  have hv := value_of_reread hq hr
  have hw := wellFormed_of_parse hr
  have hrne : r.value ≠ 0 := hv ▸ hne
  obtain ⟨u, hu, hf⟩ := exists_writtenIn_of_reread hq hne hr
  obtain rfl := h.unit_eq hu
  have hkilo : IsWhole (|r.value| / (Suffix.decimal .kilo).value) := by
    have hthousand : (Suffix.decimal .kilo).value = 1000 := by
      show (10 : ℚ) ^ (3 : ℤ) = 1000
      norm_num
    rw [hthousand, isWhole_abs_div, hv]
    exact h.2.2.1
  intro htext
  -- the same text would be read with the same power of ten
  obtain ⟨n, v, hqv, -, hqtext⟩ := exists_wholeLiteral hq ((value_ne_zero_iff hq).mp hne)
  obtain ⟨m, w, hrw, -, hrtext⟩ := exists_wholeLiteral hw ((value_ne_zero_iff hw).mp hrne)
  obtain rfl := h.unit_eq hqv
  cases hrw with
  | binary hf' => rw [hf] at hf'; cases hf'
  | exponent hf' => rw [hf] at hf'; cases hf'
  | fine _ hnone => exact hnone _ ⟨.kilo, nofun, rfl⟩ hkilo
  | decimal _ hlargest =>
    have hle := hlargest.le _ ⟨.kilo, nofun, rfl⟩ hkilo
    obtain ⟨d, -, rfl⟩ := hlargest.mem
    have hread : quantityOf (wholeLiteral r.negative m (.decimal d)) =
        quantityOf (wholeLiteral q.negative n (.decimal .one)) := by
      have hparse := parse_text_of_bounded (wholeLiteral r.negative m (.decimal d)) trivial
      rw [← hrtext, htext, hqtext] at hparse
      exact quantityOf_of_parse hparse
    have hpower : d.power - 0 = 0 - 0 := congrArg tens hread
    have hkilo : (3 : ℤ) ≤ d.power := ten_zpow_le_iff.mp hle
    omega

/-- a canonical text that is read again is kept, unless the quantity turns decimal -/
theorem toText_reread_iff {q r : Quantity} (hq : q.WellFormed) (hr : parse q.toText = .ok r) :
    r.toText = q.toText ↔ ¬ q.TurnsDecimal := by
  have hv := value_of_reread hq hr
  have hw := wellFormed_of_parse hr
  constructor
  · exact fun htext h => h.toText_ne hq hr htext
  · intro hturns
    by_cases hne : q.value = 0
    · have hzero : q.isZero = true := (value_eq_zero_iff hq).mp hne
      have hzero' : r.isZero = true := (value_eq_zero_iff hw).mp (hv.trans hne)
      rw [toText_of_isZero hzero, toText_of_isZero hzero']
    · obtain ⟨u, hu, hf⟩ := exists_writtenIn_of_reread hq hne hr
      exact toText_eq_of_writtenIn hq hw hv hne hu (hu.of_family hv hf hne hturns)

/-- no canonical text changes twice -/
theorem toText_reread_reread {q r s : Quantity} (hq : q.WellFormed) (hr : parse q.toText = .ok r)
    (hs : parse r.toText = .ok s) : s.toText = r.toText := by
  rw [toText_reread_iff (wellFormed_of_parse hr) hs]
  intro h
  obtain ⟨hbinary, hne, hkilo, hkibi⟩ := h
  rw [value_of_reread hq hr] at hne hkilo hkibi
  obtain ⟨u, hu, hf⟩ := exists_writtenIn_of_reread hq hne hr
  rw [hf] at hbinary
  by_cases hturns : q.TurnsDecimal
  · rw [hturns.unit_eq hu] at hbinary
    cases hbinary
  · by_cases hbinary' : q.family = .binarySI
    · exact hturns ⟨hbinary', hne, hkilo, hkibi⟩
    · cases hu with
      | binary hf' => exact hbinary' hf'
      | exponent _ hlargest | fine _ _ hlargest =>
        obtain ⟨j, rfl⟩ := hlargest.mem
        unfold exponentUnit at hbinary
        split at hbinary <;> cases hbinary
      | decimal _ hlargest =>
        obtain ⟨d, -, rfl⟩ := hlargest.mem
        cases hbinary

/-- **The canonical text of a quantity that was read is its own canonical text, if it is read at
all, unless it is a number of bytes in the binary family that is divisible by 1000 and not by 1024**;
and so are the amounts that a document names. -/
theorem canonical_text_fixed_iff :
    (∀ raw q r, parse raw = .ok q → parse q.toText = .ok r →
      (r.toText = q.toText ↔ ¬ q.TurnsDecimal)) ∧
    (∀ (request : Request) (enforce : Bool) (d : Draft), request.draft enforce = .ok d →
      ∀ t ∈ d.claim.amounts, ∃ q ∈ d.quantities, t = q.toText ∧
        ∀ r, parse t = .ok r → (r.toText = t ↔ ¬ q.TurnsDecimal)) := by
  have hfixed : ∀ raw q r, parse raw = .ok q → parse q.toText = .ok r →
      (r.toText = q.toText ↔ ¬ q.TurnsDecimal) := by
    intro raw q r hq hr
    exact toText_reread_iff (wellFormed_of_parse hq) hr
  refine ⟨hfixed, ?_⟩
  intro request enforce d hd t ht
  obtain ⟨q, hq, rfl⟩ := mem_amounts_claim ht
  obtain ⟨raw, hraw⟩ := Request.read_of_draft hd q hq
  exact ⟨q, hq, rfl, fun r hr => hfixed raw q r hraw hr⟩

/-- `1.5Gi` is written as `1536Mi`, and that stays so -/
theorem canonical_text_fixed_mebi : ∃ q r : Quantity, parse (ascii "1.5Gi") = .ok q ∧
    parse q.toText = .ok r ∧ q.toText = ascii "1536Mi" ∧ ¬ q.TurnsDecimal := by
  have hq : parse (ascii "1.5Gi") = .ok ⟨false, ⟨[15]⟩, -1, 30, .binarySI⟩ := rfl
  have hr : parse (toText ⟨false, ⟨[15]⟩, -1, 30, .binarySI⟩) =
    .ok ⟨false, ⟨[1536]⟩, 0, 20, .binarySI⟩ := rfl
  exact ⟨_, _, hq, hr, rfl, (canonical_text_fixed_iff.1 _ _ _ hq hr).mp rfl⟩

/-- a thousand bytes in units of 1024 are written without a suffix, and read again with one -/
theorem thousand_bytes_turn_decimal :
    parse (ascii "0.9765625Ki") = .ok ⟨false, ⟨[9765625]⟩, -7, 10, .binarySI⟩ ∧
      toText ⟨false, ⟨[9765625]⟩, -7, 10, .binarySI⟩ = ascii "1000" ∧
      parse (ascii "1000") = .ok ⟨false, ⟨[1000]⟩, 0, 0, .decimalSI⟩ ∧
      toText ⟨false, ⟨[1000]⟩, 0, 0, .decimalSI⟩ = ascii "1k" :=
  ⟨rfl, rfl, rfl, rfl⟩

end VolumeClaim.Quantity
