import VolumeClaim.Proofs.Node.Typing

/-!
# The core schema for plain scalars

The core schema of YAML 1.2 says which plain scalars are null, truth values and numbers:

    null   ::= "" | "~" | "null" | "Null" | "NULL"
    truth  ::= "true" | "True" | "TRUE" | "false" | "False" | "FALSE"
    number ::= sign? digits | "0o" octal+ | "0x" hexadecimal+ | sign? decimal
             | sign? (".inf" | ".Inf" | ".INF") | ".nan" | ".NaN" | ".NAN"

and that all others are texts.

* `Core.Resolves`         the kind that the schema gives a text;
* `Core.Resolves.unique`, `Core.exists_resolves` there is one for every text, and only one.
-/

namespace VolumeClaim

namespace Node
open Text Grammar Binary64

namespace Core

/-! ## The schema -/

/-- the words for null; no text at all is one of them -/
def nulls : List Text := ["", "~", "null", "Null", "NULL"].map ascii

def truths : List Text := ["true", "True", "TRUE", "false", "False", "FALSE"].map ascii

def isOctalDigit (b : UInt8) : Bool := 48 ≤ b && b ≤ 55

def IsOctal (t : Text) : Prop :=
  ∃ digits : Text, digits ≠ [] ∧ digits.all isOctalDigit = true ∧ t = ascii "0o" ++ digits

def IsHexadecimal (t : Text) : Prop :=
  ∃ digits : Text, digits ≠ [] ∧ digits.all isHexDigit = true ∧ t = ascii "0x" ++ digits

/-- a word for infinity, with its point and an optional sign -/
def IsPointedInfinity (t : Text) : Prop :=
  ∃ sign : Sign, ∃ word ∈ infinityWords, t = sign.text ++ word

inductive IsNumber (t : Text) : Prop
  | whole (sign : Sign) (digits : Digits) (h : t = sign.text ++ digits.text)
  | octal (h : IsOctal t)
  | hexadecimal (h : IsHexadecimal t)
  | decimal (h : IsSignedDecimal t)
  | infinity (h : IsPointedInfinity t)
  | nan (h : t ∈ nanWords)

/-- the kind that the schema gives a plain scalar -/
inductive Resolves (t : Text) : Value.Kind → Prop
  | null (h : t ∈ nulls) : Resolves t .null
  | truth (h : t ∈ truths) : Resolves t .truth
  | number (h : IsNumber t) : Resolves t .number
  | text (hnull : t ∉ nulls) (htruth : t ∉ truths) (hnumber : ¬ IsNumber t) : Resolves t .text

theorem isDecimal_digits (digits : Digits) : IsDecimal digits.text :=
  ⟨digits.text, [], .whole digits.all_digits digits.ne_nil, .absent,
    (List.append_nil digits.text).symm⟩

theorem isSignedDecimal_whole (sign : Sign) (digits : Digits) :
    IsSignedDecimal (sign.text ++ digits.text) := ⟨sign, _, isDecimal_digits digits, rfl⟩

/-- the words of a signed decimal and of an infinity follow the sign -/
theorem readSign_of_isSignedDecimal {t : Text} (h : IsSignedDecimal t) :
    IsDecimal (readSign t).2 := by
  obtain ⟨sign, unsigned, hdecimal, rfl⟩ := h
  rw [readSign_text sign fun b hb => (bare_of_isDecimal hdecimal b hb).2]
  exact hdecimal

theorem readSign_of_isPointedInfinity {t : Text} (h : IsPointedInfinity t) :
    (readSign t).2 ∈ infinityWords := by
  obtain ⟨sign, word, hword, rfl⟩ := h
  have hpoint : ∀ word ∈ infinityWords, word.head? = some (byte '.') := by decide
  have hbare := bare_of_head (hpoint word hword) (by decide)
  rw [readSign_text sign fun b hb => (hbare b hb).2]
  exact hword

/-- after its sign a number starts with a digit or a point -/
theorem IsNumber.head {t : Text} (h : IsNumber t) :
    ∃ b rest, (readSign t).2 = b :: rest ∧ (isDigit b = true ∨ b = byte '.') := by
  have hdecimal : IsSignedDecimal t →
      ∃ b rest, (readSign t).2 = b :: rest ∧ (isDigit b = true ∨ b = byte '.') :=
    fun h => (readSign_of_isSignedDecimal h).head
  cases h with
  | whole sign digits h => exact hdecimal (h ▸ isSignedDecimal_whole sign digits)
  | decimal h => exact hdecimal h
  | octal h =>
    obtain ⟨digits, -, -, rfl⟩ := h
    exact ⟨byte '0', _, rfl, .inl rfl⟩
  | hexadecimal h =>
    obtain ⟨digits, -, -, rfl⟩ := h
    exact ⟨byte '0', _, rfl, .inl rfl⟩
  | infinity h =>
    have hwords : ∀ word ∈ infinityWords, ∃ rest, word = byte '.' :: rest := by
      simp [infinityWords, ascii, byte]
    obtain ⟨rest, hrest⟩ := hwords _ (readSign_of_isPointedInfinity h)
    exact ⟨byte '.', rest, hrest, .inr rfl⟩
  | nan h =>
    have hwords : ∀ word ∈ nanWords, ∃ rest, (readSign word).2 = byte '.' :: rest := by
      simp [nanWords, ascii, byte, readSign]
    obtain ⟨rest, hrest⟩ := hwords t h
    exact ⟨byte '.', rest, hrest, .inr rfl⟩

theorem zero_notMem_of_isSignedDecimal {t : Text} (h : IsSignedDecimal t) : 0 ∉ t := by
  obtain ⟨sign, unsigned, hdecimal, rfl⟩ := h
  intro hzero
  rcases List.mem_append.mp hzero with hzero | hzero
  · cases sign <;> exact absurd hzero (by decide)
  · exact absurd (hdecimal.of_mem hzero) (by decide)

theorem zero_notMem_append {p : UInt8 → Bool} (hp : p 0 = false) {word digits : Text}
    (hword : 0 ∉ word) (hdigits : digits.all p = true) : 0 ∉ word ++ digits := by
  intro hzero
  rcases List.mem_append.mp hzero with hzero | hzero
  · exact hword hzero
  · rw [List.all_eq_true.mp hdigits 0 hzero] at hp
    cases hp

theorem IsNumber.zero_notMem {t : Text} (h : IsNumber t) : 0 ∉ t := by
  cases h with
  | whole sign digits h =>
    exact zero_notMem_of_isSignedDecimal (h ▸ isSignedDecimal_whole sign digits)
  | decimal h => exact zero_notMem_of_isSignedDecimal h
  | octal h =>
    obtain ⟨digits, -, hdigits, rfl⟩ := h
    exact zero_notMem_append (by decide) (by decide) hdigits
  | hexadecimal h =>
    obtain ⟨digits, -, hdigits, rfl⟩ := h
    exact zero_notMem_append (by decide) (by decide) hdigits
  | infinity h =>
    obtain ⟨sign, word, hword, rfl⟩ := h
    have hwords : ∀ word ∈ infinityWords, 0 ∉ word ∧ 0 ∉ byte '+' :: word ∧
        0 ∉ byte '-' :: word := by decide
    obtain ⟨habsent, hplus, hminus⟩ := hwords word hword
    cases sign with
    | absent => exact habsent
    | plus => exact hplus
    | minus => exact hminus
  | nan h =>
    have hwords : ∀ word ∈ nanWords, 0 ∉ word := by decide
    exact hwords t h

/-- no word is a number -/
theorem not_isNumber_of_word {t : Text} (h : t ∈ nulls ++ truths) : ¬ IsNumber t := by
  intro hnumber
  have hwords : ∀ word ∈ nulls ++ truths,
      ((readSign word).2.head?.any fun b => isDigit b || b = byte '.') = false := by decide
  obtain ⟨b, rest, hb, hfirst⟩ := hnumber.head
  have hword := hwords t h
  rw [hb, List.head?_cons, Option.any_some, Bool.or_eq_false_iff, decide_eq_false_iff_not]
    at hword
  rcases hfirst with hdigit | hpoint
  · rw [hdigit] at hword
    exact absurd hword.1 (by decide)
  · exact hword.2 hpoint

theorem Resolves.unique {t : Text} {kind other : Value.Kind} (h : Resolves t kind)
    (h' : Resolves t other) : kind = other := by
  have hwords : ∀ word ∈ nulls, word ∉ truths := by decide
  have hnull : t ∈ nulls → ¬ IsNumber t := fun h =>
    not_isNumber_of_word (List.mem_append_left _ h)
  have htruth : t ∈ truths → ¬ IsNumber t := fun h =>
    not_isNumber_of_word (List.mem_append_right _ h)
  cases h with
  | null h =>
    cases h' with
    | null => rfl
    | truth h' => exact absurd h' (hwords t h)
    | number h' => exact absurd h' (hnull h)
    | text hnull' => exact absurd h hnull'
  | truth h =>
    cases h' with
    | null h' => exact absurd h (hwords t h')
    | truth => rfl
    | number h' => exact absurd h' (htruth h)
    | text _ htruth' => exact absurd h htruth'
  | number h =>
    cases h' with
    | null h' => exact absurd h (hnull h')
    | truth h' => exact absurd h (htruth h')
    | number => rfl
    | text _ _ hnumber => exact absurd h hnumber
  | text hnull' htruth' hnumber =>
    cases h' with
    | null h' => exact absurd h' hnull'
    | truth h' => exact absurd h' htruth'
    | number h' => exact absurd h' hnumber
    | text => rfl

theorem exists_resolves (t : Text) : ∃ kind, Resolves t kind := by
  by_cases hnull : t ∈ nulls
  · exact ⟨.null, .null hnull⟩
  by_cases htruth : t ∈ truths
  · exact ⟨.truth, .truth htruth⟩
  by_cases hnumber : IsNumber t
  · exact ⟨.number, .number hnumber⟩
  · exact ⟨.text, .text hnull htruth hnumber⟩

end Core

end Node
end VolumeClaim
