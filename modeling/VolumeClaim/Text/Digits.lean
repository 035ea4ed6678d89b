import VolumeClaim.Text

/-!
# Decimal digits

`decimal` writes a number in base ten without leading zeros and `decimalValue` is the value of
a string of digits; `decimalValue_decimal` reads a written number back.
-/

namespace VolumeClaim.Text

def isDigit (b : UInt8) : Bool := 48 ≤ b && b ≤ 57

/-- the value of a digit; meaningful for digits only -/
def digitValue (b : UInt8) : Nat := b.toNat - 48

/-- the digit of a value below ten -/
def digitByte (d : Nat) : UInt8 := (48 + d).toUInt8

/-- the value of a string of digits, read from the left -/
def decimalValue (t : Text) : Nat := t.foldl (fun v d => 10 * v + digitValue d) 0

theorem decimalValue_nil : decimalValue [] = 0 := rfl

theorem decimalValue_concat (t : Text) (d : UInt8) :
    decimalValue (t ++ [d]) = 10 * decimalValue t + digitValue d := by
  simp [decimalValue]

theorem digitValue_lt {d : UInt8} (h : isDigit d = true) : digitValue d < 10 := by
  simp only [isDigit, Bool.and_eq_true, decide_eq_true_eq, UInt8.le_iff_toNat_le] at h
  have : (57 : UInt8).toNat = 57 := rfl
  rw [digitValue]
  omega

theorem le_toNat_of_isDigit {d : UInt8} (h : isDigit d = true) : 48 ≤ d.toNat := by
  simp only [isDigit, Bool.and_eq_true, decide_eq_true_eq] at h
  exact h.1

/-- the decimal digits of a number, without leading zeros -/
def decimal (n : Nat) : Text := (Nat.toDigits 10 n).map byte

theorem byte_digitChar {d : Nat} (h : d < 10) : byte d.digitChar = digitByte d := by
  simp [byte, digitByte, Nat.toNat_digitChar_of_lt_ten h]

theorem decimal_of_lt {n : Nat} (h : n < 10) : decimal n = [digitByte n] := by
  simp [decimal, Nat.toDigits_of_lt_base h, byte_digitChar h]

theorem decimal_of_ge {n : Nat} (h : 10 ≤ n) :
    decimal n = decimal (n / 10) ++ [digitByte (n % 10)] := by
  simp [decimal, Nat.toDigits_of_base_le (by decide) h, byte_digitChar (Nat.mod_lt n (by decide))]

theorem toNat_digitByte {d : Nat} (h : d < 10) : (digitByte d).toNat = 48 + d := by
  simp [digitByte]
  omega

theorem digitValue_digitByte {d : Nat} (h : d < 10) : digitValue (digitByte d) = d := by
  simp [digitValue, toNat_digitByte h]

theorem digitByte_digitValue {d : UInt8} (h : isDigit d = true) : digitByte (digitValue d) = d := by
  have hlow := le_toNat_of_isDigit h
  rw [← UInt8.toNat_inj, toNat_digitByte (digitValue_lt h), digitValue]
  omega

theorem isDigit_digitByte {d : Nat} (h : d < 10) : isDigit (digitByte d) = true := by
  simp [isDigit, UInt8.le_iff_toNat_le, toNat_digitByte h]
  omega

theorem decimal_zero : decimal 0 = [48] := rfl

/-- a written number reads back -/
theorem decimalValue_decimal (n : Nat) : decimalValue (decimal n) = n := by
  induction n using Nat.strongRecOn with
  | _ n ih =>
    by_cases h : n < 10
    · rw [decimal_of_lt h, ← List.nil_append [digitByte n], decimalValue_concat,
        digitValue_digitByte h]
      simp [decimalValue_nil]
    · rw [decimal_of_ge (by omega), decimalValue_concat, ih _ (by omega),
        digitValue_digitByte (by omega)]
      omega

theorem all_isDigit_decimal (n : Nat) : (decimal n).all isDigit = true := by
  induction n using Nat.strongRecOn with
  | _ n ih =>
    by_cases h : n < 10
    · simp [decimal_of_lt h, isDigit_digitByte h]
    · simp [decimal_of_ge (by omega : 10 ≤ n), ih (n / 10) (by omega),
        isDigit_digitByte (by omega : n % 10 < 10)]

def signedDecimal : Int → Text
  | .ofNat n => decimal n
  | .negSucc n => byte '-' :: decimal (n + 1)

/-- a number below `10 ^ width` written with exactly `width` digits -/
def padded (width n : Nat) : Text :=
  let digits := decimal n
  List.replicate (width - digits.length) 48 ++ digits

theorem padded_one {n : Nat} (h : n < 10) : padded 1 n = [digitByte n] := by
  simp [padded, decimal_of_lt h]

theorem padded_succ {width : Nat} (h : 0 < width) (n : Nat) :
    padded (width + 1) n = padded width (n / 10) ++ [digitByte (n % 10)] := by
  by_cases hn : n < 10
  · obtain ⟨w, rfl⟩ : ∃ w, width = w + 1 := ⟨width - 1, by omega⟩
    rw [Nat.div_eq_of_lt hn, Nat.mod_eq_of_lt hn, padded, padded, decimal_of_lt hn, decimal_zero]
    simp [List.replicate_succ']
  · rw [padded, padded, decimal_of_ge (by omega)]
    simp

end VolumeClaim.Text
