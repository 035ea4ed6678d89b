import VolumeClaim.Proofs.Quantity.Checked

/-!
# Exponents stay in their words

A literal of `n` bytes has an exponent above `-(n + 1024)`, and writing it adds at most the digits of
its magnitude.  For literals below `2 ^ 30` bytes nothing on the way leaves a word.

* `Within n q`           what is known of a quantity whose literal has `n` bytes;
* `Checked.compare_eq`   comparing two of them has a result with checks, the one without;
* `Checked.toText_eq`    so has writing one;
* `exponents_in_range`   and reading any text.
-/

namespace VolumeClaim.Quantity
open Text Grammar

/-! ## What was read -/

/-- a quantity whose literal has at most `n` bytes -/
structure Within (n : ℕ) (q : Quantity) : Prop where
  wellFormed : q.WellFormed
  value_lt : q.magnitude.value < 10 ^ n
  tens_ge : -(n + 1024) ≤ q.tens
  tens_le : q.tens ≤ 1024
  twos_le : q.twos ≤ 60

theorem Within.mono {n k : ℕ} {q : Quantity} (h : q.Within n) (hle : n ≤ k) : q.Within k where
  wellFormed := h.wellFormed
  value_lt := Nat.lt_of_lt_of_le h.value_lt (Nat.pow_le_pow_right (by decide) hle)
  tens_ge := by
    have htens := h.tens_ge
    omega
  tens_le := h.tens_le
  twos_le := h.twos_le

theorem length_digits_numeralOf_le (n : Number) :
    (numeralOf n).digits.length ≤ n.text.length := by
  cases n with
  | whole w => simp [numeralOf, Numeral.digits, Number.text]
  | pointed w f => cases f <;> simp [numeralOf, Numeral.digits, Number.text]
  | fraction f => simp [numeralOf, Numeral.digits, Number.text]

theorem within_quantityOf {l : Literal} (h : l.Bounded) : (quantityOf l).Within l.text.length := by
  have hdigits := length_digits_numeralOf_le l.number
  have hfraction := (numeralOf l.number).length_fraction_le
  have htext : l.text.length = l.sign.text.length + (l.number.text.length + l.suffix.text.length) := by
    rw [Literal.text, List.length_append, List.length_append]
  obtain ⟨hlow, hhigh, htwos⟩ := bounds_scaleOf h
  have htens : (quantityOf l).tens =
    (scaleOf l.suffix).tens - (numeralOf l.number).fraction.length := rfl
  refine ⟨wellFormed_quantityOf l, ?_, ?_, ?_, htwos⟩
  · have hall := all_digits_numeralOf l.number
    show (Magnitude.ofDigits (numeralOf l.number).digits).value < _
    rw [Magnitude.value_ofDigits hall]
    exact Nat.lt_of_lt_of_le (decimalValue_lt hall) (Nat.pow_le_pow_right (by decide) (by omega))
  · omega
  · omega

theorem within_of_parse {raw : Text} {q : Quantity} (h : parse raw = .ok q) :
    q.Within raw.length := by
  obtain ⟨l, ⟨hbounded, rfl⟩ | hzero, rfl⟩ := literal_of_parse h
  · exact within_quantityOf hbounded
  · obtain ⟨hsuffix, rfl⟩ := hzero
    have hbounded : l.Bounded := by
      rw [Literal.Bounded, hsuffix]
      trivial
    have hlength : l.text.length ≤ (l.text ++ [0]).length := by
      rw [List.length_append]
      exact Nat.le_add_right _ _
    exact (within_quantityOf hbounded).mono hlength

namespace Checked

/-! ## Comparing -/

section
variable {a b : Quantity} {n k : ℕ} (ha : a.Within n) (hb : b.Within k) (hn : n < 2 ^ 30)
  (hk : k < 2 ^ 30)
include ha hb hn hk

theorem compareMagnitudes_eq :
    compareMagnitudes a b = some (answer (Quantity.compareMagnitudes a b)) := by
  have hca := ha.tens_ge
  have hca' := ha.tens_le
  have hcb := hb.tens_ge
  have hcb' := hb.tens_le
  have htwos : min (a.twos : ℤ) b.twos = (min a.twos b.twos : ℕ) := (Nat.cast_min a.twos b.twos).symm
  have hleft : magnitudeAt a (min a.tens b.tens) (min a.twos b.twos : ℕ) =
      some (a.magnitudeAt (min a.tens b.tens) (min a.twos b.twos)) :=
    magnitudeAt_eq (by omega) (by omega) (by omega) ha.twos_le
  have hright : magnitudeAt b (min a.tens b.tens) (min a.twos b.twos : ℕ) =
      some (b.magnitudeAt (min a.tens b.tens) (min a.twos b.twos)) :=
    magnitudeAt_eq (by omega) (by omega) (by omega) hb.twos_le
  unfold compareMagnitudes
  simp only [htwos, hleft, hright, Option.bind_eq_bind, Option.bind_some]
  exact int?_answer _

theorem compare_eq : compare a b = some (answer (Quantity.compare a b)) := by
  have hmagnitudes := compareMagnitudes_eq ha hb hn hk
  unfold compare Quantity.compare
  simp only [int?_sign, Option.bind_eq_bind, Option.bind_some]
  by_cases hne : a.sign ≠ b.sign
  · rw [if_pos hne, if_pos hne]
    split <;> rfl
  · rw [if_neg hne, if_neg hne]
    by_cases hzero : a.sign = 0
    · rw [if_pos hzero, if_pos hzero]
      rfl
    · rw [if_neg hzero, if_neg hzero, hmagnitudes, Option.bind_some]
      split
      · exact int?_neg_answer _
      · rfl

end

/-! ## Writing -/

/-- the powers of two add at most 19 digits -/
theorem value_mulPow2_lt {q : Quantity} {n : ℕ} (h : q.Within n) :
    (q.magnitude.mulPow2 q.twos).value < 10 ^ (n + 19) := by
  have hpow : 2 ^ q.twos ≤ 2 ^ 60 := Nat.pow_le_pow_right (by decide) h.twos_le
  rw [Magnitude.value_mulPow2 h.wellFormed.canonical, pow_add]
  exact Nat.mul_lt_mul_of_lt_of_le h.value_lt (hpow.trans (by decide)) (by decide)

section
variable {q : Quantity} {n : ℕ} (h : q.Within n) (hn : n < 2 ^ 30) (hz : q.isZero = false)
include h hn hz

theorem stripped_eq : stripped q = some q.stripped ∧
    -2 ^ 31 + 3 ≤ q.stripped.2 ∧ q.stripped.2 < 2 ^ 31 - 9 := by
  have hc := Magnitude.canonical_mulPow2 h.wellFormed.canonical q.twos
  have hlimit := Magnitude.limbsValue_lt hc.1
  have hvalue := value_mulPow2_lt h
  have hm := value_mulPow2_ne_zero h.wellFormed hz
  have hlow := h.tens_ge
  have hhigh := h.tens_le
  obtain ⟨hge, hlt⟩ := bounds_stripTens q.tens hc hm hlimit hvalue
  have hstripped : (Quantity.stripTens (9 * (q.magnitude.mulPow2 q.twos).limbs.length)
    (q.magnitude.mulPow2 q.twos) q.tens) = q.stripped := rfl
  rw [hstripped] at hge hlt
  refine ⟨?_, by omega, by omega⟩
  rw [stripped, unsigned?_twos h.twos_le, Option.bind_eq_bind, Option.bind_some]
  exact stripTens_eq hc hm hlimit hvalue (by omega) (by omega)

theorem decimalText_eq (exponentForm : Bool) : decimalText q exponentForm =
    some (if exponentForm then Quantity.exponentText q.stripped.1 q.stripped.2
      else Quantity.suffixText q.stripped.1 q.stripped.2) := by
  obtain ⟨hstripped, hlow, hhigh⟩ := stripped_eq h hn hz
  rw [decimalText, hstripped, Option.bind_eq_bind, Option.bind_some]
  cases exponentForm with
  | true => exact exponentText_eq hlow hhigh
  | false => exact suffixText_eq hlow hhigh

theorem unsignedText_eq : unsignedText q = some q.unsignedText := by
  have hlow := h.tens_ge
  have hhigh := h.tens_le
  unfold unsignedText Quantity.unsignedText
  cases q.family with
  | decimalExponent => exact decimalText_eq h hn hz true
  | decimalSI => exact decimalText_eq h hn hz false
  | binarySI =>
    dsimp only
    rw [whole_eq (by omega) (by omega) h.twos_le, Option.bind_eq_bind, Option.bind_some]
    cases q.whole? with
    | some m => rfl
    | none => exact decimalText_eq h hn hz false

end

/-- **Writing a quantity that was read multiplies by powers that are not negative.** -/
theorem toText_eq {q : Quantity} {n : ℕ} (h : q.Within n) (hn : n < 2 ^ 30) :
    toText q = some q.toText := by
  unfold toText Quantity.toText
  cases hz : q.isZero with
  | true => rfl
  | false =>
    rw [unsignedText_eq h hn hz]
    rfl

end Checked

/-! ## Any literals -/

/-- **No exponent leaves its word, and no power that is multiplied by is negative**: with checks on
every step, reading any text below `2 ^ 30` bytes, writing what was read, and comparing it with what
was read of another such text have the results that they have without. -/
theorem exponents_in_range {a b : Text} (ha : a.length < 2 ^ 30) (hb : b.length < 2 ^ 30) :
    Checked.parse a = some (parse a) ∧
      ∀ p, parse a = .ok p → Checked.toText p = some p.toText ∧
        ∀ q, parse b = .ok q → Checked.compare p q = some (Checked.answer (p.compare q)) := by
  refine ⟨Checked.parse_eq ha, fun p hp => ?_⟩
  have hwithin := within_of_parse hp
  refine ⟨Checked.toText_eq hwithin ha, fun q hq => ?_⟩
  exact Checked.compare_eq hwithin (within_of_parse hq) ha hb

/-- a binary literal finer than nano and a decimal one, both negative -/
theorem exponents_in_range_fine :
    (ascii "-0.000000000001Ki").length < 2 ^ 30 ∧ (ascii "-3e-20").length < 2 ^ 30 ∧
      ∃ p q, parse (ascii "-0.000000000001Ki") = .ok p ∧ parse (ascii "-3e-20") = .ok q ∧
        Checked.parse (ascii "-0.000000000001Ki") = some (.ok p) ∧
        Checked.toText p = some (ascii "-1024e-12") ∧ Checked.compare p q = some (-1) := by
  have ha : (ascii "-0.000000000001Ki").length < 2 ^ 30 := by decide
  have hb : (ascii "-3e-20").length < 2 ^ 30 := by decide
  have hp : parse (ascii "-0.000000000001Ki") = .ok ⟨true, ⟨[1]⟩, -12, 10, .binarySI⟩ := by decide
  have hq : parse (ascii "-3e-20") = .ok ⟨true, ⟨[3]⟩, -20, 0, .decimalExponent⟩ := by decide
  obtain ⟨hread, hlater⟩ := exponents_in_range ha hb
  obtain ⟨hwritten, hcompared⟩ := hlater _ hp
  refine ⟨ha, hb, _, _, hp, hq, hread.trans (congrArg some hp), hwritten.trans ?_,
    (hcompared _ hq).trans ?_⟩
  · decide
  · decide

end VolumeClaim.Quantity
