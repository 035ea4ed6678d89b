import VolumeClaim.Proofs.Quantity.Comparison
import VolumeClaim.Proofs.Quantity.Reduction

/-!
# The units of canonical texts

A canonical text is a sign, a whole number and a unit.  The units form three ladders: the powers
of 1024 up to `Ei`, the decimal suffixes, and the powers of ten with a multiple of three for an
exponent.  `Largest` is what a canonical text chooses on a ladder, `WrittenIn` says which ladder
is the one of a quantity.

* `largest_exponentUnit`, `largest_decimal`, `largest_binary` how the choice is made on each;
* `Largest.isWhole_div_iff` on the ladder of powers of ten it tells the whole from the fractions.
-/

namespace VolumeClaim.Quantity
open Text Grammar

/-! ## Literals with a whole number of units -/

theorem decimal_ne_nil (n : ℕ) : decimal n ≠ [] := by
  by_cases hn : n < 10
  · rw [decimal_of_lt hn]
    exact List.cons_ne_nil _ _
  · rw [decimal_of_ge (by omega)]
    exact List.append_ne_nil_of_right_ne_nil _ (List.cons_ne_nil _ _)

/-- a number other than zero has no zero in front -/
theorem head?_decimal_ne {n : ℕ} (hn : n ≠ 0) : (decimal n).head? ≠ some (byte '0') := by
  induction n using Nat.strongRecOn with
  | _ n ih =>
    by_cases h : n < 10
    · intro e
      rw [decimal_of_lt h, List.head?_cons, Option.some_inj] at e
      have hb := toNat_digitByte h
      rw [e] at hb
      have h48 : (byte '0').toNat = 48 := rfl
      omega
    · have hq := ih (n / 10) (by omega) (by omega)
      rw [decimal_of_ge (by omega), List.head?_append_of_ne_nil _ (decimal_ne_nil _)]
      exact hq

def digitsOf (n : ℕ) : Digits := ⟨decimal n, decimal_ne_nil n, all_isDigit_decimal n⟩

theorem value_digitsOf (n : ℕ) : (digitsOf n).value = n := decimalValue_decimal n

def signOf (negative : Bool) : Sign := if negative then .minus else .absent

theorem text_signOf (negative : Bool) :
    (signOf negative).text = if negative then [byte '-'] else [] := by
  cases negative <;> rfl

def wholeLiteral (negative : Bool) (n : ℕ) (unit : Suffix) : Literal :=
  ⟨signOf negative, .whole (digitsOf n), unit⟩

theorem text_wholeLiteral (negative : Bool) (n : ℕ) (unit : Suffix) :
    (wholeLiteral negative n unit).text =
      (if negative then [byte '-'] else []) ++ (decimal n ++ unit.text) := by
  rw [← text_signOf]
  rfl

theorem value_wholeLiteral (negative : Bool) (n : ℕ) (unit : Suffix) :
    (wholeLiteral negative n unit).value =
      if negative then -(n * unit.value) else n * unit.value := by
  show ((signOf negative).factor : ℚ) * (digitsOf n).value * unit.value = _
  rw [value_digitsOf]
  cases negative <;> simp [signOf, Sign.factor]

/-! ## The three ladders -/

def exponentUnit (k : ℤ) : Suffix :=
  if k = 0 then .decimal .one else .exponent .lower (signOf (k < 0)) (digitsOf k.natAbs)

theorem text_exponentUnit (k : ℤ) : (exponentUnit k).text = exponentSuffix k := by
  unfold exponentUnit exponentSuffix
  by_cases hk : k = 0
  · rw [if_pos hk, if_pos hk]
    rfl
  · rw [if_neg hk, if_neg hk]
    show byte 'e' :: ((signOf (k < 0)).text ++ decimal k.natAbs) = _
    cases k with
    | ofNat n =>
      have hn : decide (Int.ofNat n < 0) = false :=
        decide_eq_false (not_lt.mpr (Int.natCast_nonneg n))
      rw [text_signOf, hn]
      rfl
    | negSucc n =>
      have hn : decide (Int.negSucc n < 0) = true := decide_eq_true (Int.negSucc_lt_zero n)
      rw [text_signOf, hn]
      rfl

theorem value_exponentUnit (k : ℤ) : (exponentUnit k).value = 10 ^ k := by
  unfold exponentUnit
  by_cases hk : k = 0
  · rw [if_pos hk, hk]
    rfl
  · rw [if_neg hk]
    show (10 : ℚ) ^ ((signOf (k < 0)).factor * ((digitsOf k.natAbs).value : ℤ)) = _
    rw [value_digitsOf]
    congr 1
    by_cases hneg : k < 0
    · rw [decide_eq_true hneg]
      show -1 * (k.natAbs : ℤ) = k
      omega
    · rw [decide_eq_false hneg]
      show 1 * (k.natAbs : ℤ) = k
      omega

theorem bounded_exponentUnit (k : ℤ) : (exponentUnit k).Bounded ↔ k.natAbs ≤ 1024 := by
  unfold exponentUnit
  by_cases hk : k = 0
  · rw [if_pos hk, hk]
    exact ⟨fun _ => by decide, fun _ => trivial⟩
  · rw [if_neg hk]
    show (digitsOf k.natAbs).value ≤ 1024 ↔ _
    rw [value_digitsOf]

/-- `1`, `e3`, `e-3`, `e6`, and so on in both directions -/
def exponentUnits : Set Suffix := {u | ∃ j : ℤ, u = exponentUnit (3 * j)}

/-- `n`, `u`, `m`, `1`, `k`, `M`, `G`, `T`, `P`, `E`; never `K` -/
def decimalUnits : Set Suffix := {u | ∃ d : DecimalUnit, d ≠ .kiloUpper ∧ u = .decimal d}

/-- `1`, `Ki`, `Mi`, `Gi`, `Ti`, `Pi`, `Ei` -/
def binaryUnits : Set Suffix := {u | u = .decimal .one ∨ ∃ b, u = .binary b}

/-- from nano to exa every third power of ten has a suffix -/
theorem exists_decimalUnit {j : ℤ} (hlow : -3 ≤ j) (hhigh : j ≤ 6) :
    ∃ u : DecimalUnit, u ≠ .kiloUpper ∧ u.text = decimalSuffix (3 * j) ∧ u.power = 3 * j := by
  interval_cases j
  · exact ⟨.nano, nofun, rfl, rfl⟩
  · exact ⟨.micro, nofun, rfl, rfl⟩
  · exact ⟨.milli, nofun, rfl, rfl⟩
  · exact ⟨.one, nofun, rfl, rfl⟩
  · exact ⟨.kilo, nofun, rfl, rfl⟩
  · exact ⟨.mega, nofun, rfl, rfl⟩
  · exact ⟨.giga, nofun, rfl, rfl⟩
  · exact ⟨.tera, nofun, rfl, rfl⟩
  · exact ⟨.peta, nofun, rfl, rfl⟩
  · exact ⟨.exa, nofun, rfl, rfl⟩

theorem exists_eq_power (d : DecimalUnit) : ∃ j : ℤ, d.power = 3 * j ∧ -3 ≤ j ∧ j ≤ 6 := by
  cases d with
  | nano => exact ⟨-3, by decide⟩
  | micro => exact ⟨-2, by decide⟩
  | milli => exact ⟨-1, by decide⟩
  | one => exact ⟨0, by decide⟩
  | kilo => exact ⟨1, by decide⟩
  | kiloUpper => exact ⟨1, by decide⟩
  | mega => exact ⟨2, by decide⟩
  | giga => exact ⟨3, by decide⟩
  | tera => exact ⟨4, by decide⟩
  | peta => exact ⟨5, by decide⟩
  | exa => exact ⟨6, by decide⟩

theorem exists_binaryUnit {i : ℕ} (hi : i ≤ 6) :
    ∃ unit ∈ binaryUnits, unit.text = binarySuffix i ∧ unit.value = 1024 ^ i := by
  interval_cases i
  · exact ⟨.decimal .one, .inl rfl, rfl, rfl⟩
  · exact ⟨.binary .kibi, .inr ⟨_, rfl⟩, rfl, rfl⟩
  · exact ⟨.binary .mebi, .inr ⟨_, rfl⟩, rfl, rfl⟩
  · exact ⟨.binary .gibi, .inr ⟨_, rfl⟩, rfl, rfl⟩
  · exact ⟨.binary .tebi, .inr ⟨_, rfl⟩, rfl, rfl⟩
  · exact ⟨.binary .pebi, .inr ⟨_, rfl⟩, rfl, rfl⟩
  · exact ⟨.binary .exbi, .inr ⟨_, rfl⟩, rfl, rfl⟩

theorem value_of_mem_binaryUnits {u : Suffix} (hu : u ∈ binaryUnits) :
    ∃ i ≤ 6, u.value = 1024 ^ i := by
  rcases hu with rfl | ⟨b, rfl⟩
  · exact ⟨0, by decide, rfl⟩
  · refine ⟨b.power, ?_, rfl⟩
    cases b <;> decide

/-! ## The largest unit -/

/-- the largest of some units of which a size is a whole number -/
structure Largest (units : Set Suffix) (x : ℚ) (u : Suffix) : Prop where
  mem : u ∈ units
  whole : IsWhole (x / u.value)
  le : ∀ w ∈ units, IsWhole (x / w.value) → w.value ≤ u.value

theorem ten_zpow_le_iff {j k : ℤ} : (10 : ℚ) ^ j ≤ 10 ^ k ↔ j ≤ k :=
  zpow_le_zpow_iff_right₀ (by norm_num)

section
variable {m : ℕ} (hm : ¬ 10 ∣ m) (tens : ℤ)
include hm

/-- without factors of ten in the number, the power of ten decides -/
theorem isWhole_div_zpow_iff (k : ℤ) : IsWhole ((m : ℚ) * 10 ^ tens / 10 ^ k) ↔ k ≤ tens := by
  have e : (m : ℚ) * 10 ^ tens / 10 ^ k = m * 10 ^ (tens - k) := by
    rw [zpow_sub₀ (by norm_num), mul_div_assoc]
  rw [e, isWhole_mul_zpow_iff hm, sub_nonneg]

theorem largest_exponentUnit :
    Largest exponentUnits (m * 10 ^ tens) (exponentUnit (floorToThree tens)) := by
  refine ⟨⟨tens / 3, rfl⟩, ?_, ?_⟩
  · rw [value_exponentUnit, isWhole_div_zpow_iff hm]
    unfold floorToThree
    omega
  · rintro w ⟨j, rfl⟩ hw
    rw [value_exponentUnit, isWhole_div_zpow_iff hm] at hw
    rw [value_exponentUnit, value_exponentUnit, ten_zpow_le_iff]
    unfold floorToThree
    omega

theorem largest_decimal {d : DecimalUnit} (hd : d ≠ .kiloUpper) (hp : d.power = suffixScale tens)
    (hle : suffixScale tens ≤ tens) : Largest decimalUnits (m * 10 ^ tens) (.decimal d) := by
  refine ⟨⟨d, hd, rfl⟩, ?_, ?_⟩
  · show IsWhole (_ / 10 ^ d.power)
    rw [isWhole_div_zpow_iff hm, hp]
    exact hle
  · rintro w ⟨d', -, rfl⟩ hw
    change IsWhole (_ / 10 ^ d'.power) at hw
    rw [isWhole_div_zpow_iff hm] at hw
    show (10 : ℚ) ^ d'.power ≤ 10 ^ d.power
    obtain ⟨j, hj, hlow, hhigh⟩ := exists_eq_power d'
    rw [ten_zpow_le_iff, hp]
    unfold suffixScale floorToThree
    omega

/-- finer than nano no suffix is left -/
theorem not_isWhole_of_lt_suffixScale (hlt : tens < suffixScale tens) :
    ∀ w ∈ decimalUnits, ¬ IsWhole ((m : ℚ) * 10 ^ tens / w.value) := by
  rintro w ⟨d, -, rfl⟩ hw
  change IsWhole (_ / 10 ^ d.power) at hw
  rw [isWhole_div_zpow_iff hm] at hw
  obtain ⟨j, hj, hlow, hhigh⟩ := exists_eq_power d
  unfold suffixScale floorToThree at hlt
  omega

end

theorem isWhole_div_pow_iff {m i : ℕ} : IsWhole ((m : ℚ) / 1024 ^ i) ↔ 1024 ^ i ∣ m := by
  have hne : (1024 : ℚ) ^ i ≠ 0 := by positivity
  constructor
  · rintro ⟨n, hn⟩
    rw [div_eq_iff hne] at hn
    have hn : (m : ℤ) = n * (1024 ^ i : ℕ) := by exact_mod_cast hn
    exact Int.natCast_dvd_natCast.mp ⟨n, by rw [hn, mul_comm]⟩
  · rintro ⟨c, rfl⟩
    refine ⟨c, ?_⟩
    push_cast
    field_simp

/-- as many factors of 1024 as there are, six at most -/
theorem largest_binary {m r i : ℕ} {u : Suffix} (hu : u ∈ binaryUnits) (hv : u.value = 1024 ^ i)
    (hm : r * 1024 ^ i = m) (hmax : i < 6 → ¬ 1024 ∣ r) : Largest binaryUnits m u := by
  refine ⟨hu, ?_, ?_⟩
  · rw [hv, isWhole_div_pow_iff, ← hm]
    exact Dvd.intro_left r rfl
  · intro w hw hwhole
    obtain ⟨j, hj, hwv⟩ := value_of_mem_binaryUnits hw
    rw [hwv, isWhole_div_pow_iff, ← hm] at hwhole
    have hji : j ≤ i := by
      by_contra hlt
      have hdvd : 1024 ^ (i + 1) ∣ r * 1024 ^ i :=
        (Nat.pow_dvd_pow 1024 (by omega)).trans hwhole
      rw [pow_succ, mul_comm] at hdvd
      exact hmax (by omega) (Nat.dvd_of_mul_dvd_mul_right (by positivity) hdvd)
    rw [hwv, hv]
    exact pow_le_pow_right₀ (by norm_num) hji

/-- what is whole in one power of ten is whole in all smaller ones -/
theorem isWhole_div_zpow_of_le {x : ℚ} {i j : ℤ} (hj : IsWhole (x / 10 ^ (3 * j)))
    (hi : i ≤ j) : IsWhole (x / 10 ^ (3 * i)) := by
  obtain ⟨k, hk⟩ := Int.eq_ofNat_of_zero_le (sub_nonneg.mpr hi)
  have e : x / 10 ^ (3 * i) = x / 10 ^ (3 * j) * 10 ^ (3 * k) := by
    have hi : 3 * i = 3 * j - (3 * k : ℕ) := by omega
    rw [hi, zpow_sub₀ (by norm_num), zpow_natCast, div_div_eq_mul_div, div_mul_eq_mul_div]
  rw [e]
  exact isWhole_mul_pow hj _

theorem Largest.isWhole_div_iff {x : ℚ} {j : ℤ}
    (h : Largest exponentUnits x (exponentUnit (3 * j))) (i : ℤ) :
    IsWhole (x / 10 ^ (3 * i)) ↔ i ≤ j := by
  constructor
  · intro hi
    have hle := h.le (exponentUnit (3 * i)) ⟨i, rfl⟩ (by rw [value_exponentUnit]; exact hi)
    rw [value_exponentUnit, value_exponentUnit, ten_zpow_le_iff] at hle
    omega
  · have hj := h.whole
    rw [value_exponentUnit] at hj
    exact isWhole_div_zpow_of_le hj

/-! ## The unit of a quantity -/

/-- to be written with a decimal suffix, if there is one that is fine enough -/
def Suffixed (q : Quantity) : Prop :=
  q.family = .decimalSI ∨ q.family = .binarySI ∧ ¬ IsWhole q.value

theorem Suffixed.ne_exponent {q : Quantity} (h : q.Suffixed) : q.family ≠ .decimalExponent := by
  rcases h with hf | ⟨hf, -⟩ <;> (rw [hf]; exact nofun)

theorem Suffixed.not_isWhole {q : Quantity} (h : q.Suffixed) (hf : q.family = .binarySI) :
    ¬ IsWhole q.value := by
  rcases h with hd | ⟨-, hnot⟩
  · rw [hf] at hd
    cases hd
  · exact hnot

/-- the unit that a quantity other than zero is written in -/
inductive WrittenIn (q : Quantity) (u : Suffix) : Prop where
  | binary (family : q.family = .binarySI) (whole : IsWhole q.value)
    (largest : Largest binaryUnits |q.value| u)
  | exponent (family : q.family = .decimalExponent) (largest : Largest exponentUnits |q.value| u)
  | decimal (family : q.Suffixed) (largest : Largest decimalUnits |q.value| u)
  | fine (family : q.Suffixed) (none : ∀ w ∈ decimalUnits, ¬ IsWhole (|q.value| / w.value))
    (largest : Largest exponentUnits |q.value| u)

end VolumeClaim.Quantity
