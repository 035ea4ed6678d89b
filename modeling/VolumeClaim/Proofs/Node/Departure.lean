import VolumeClaim.Proofs.Node.CoreSchema

/-!
# Where the reader leaves the core schema

The reader of plain scalars knows fewer words than the schema, and its numbers are others: it has
no octal digits and no words with a point, but blanks in front, words without a point, signs and
points in hexadecimal digits, and whatever follows a zero byte.

* `Core.Missed`, `Core.Mistaken` where the reader leaves the schema, on either side;
* `Core.resolves_kind_iff` everywhere else they agree;
* `plainValue_typed`      what the reader makes of a text, and when the schema does the same.
-/

namespace VolumeClaim

namespace Node
open Text Grammar Binary64

/-! ## Where the reader leaves the schema -/

/-- a word for infinity or for no number, without a point and in either case -/
def IsBareWord (t : Text) : Prop :=
  lower t ∈ ["inf", "infinity", "nan"].map ascii ∨
    ∃ note, note.all isNoteByte = true ∧ lower t = ascii "nan(" ++ (note ++ [byte ')'])

/-- hexadecimal digits with at most one point, and a power of two -/
def IsWideHexadecimal (t : Text) : Prop :=
  ∃ digits, lower t = ascii "0x" ++ digits ∧
    IsScientific isHexDigit (byte 'p') (byte 'P') digits

namespace Core

/-- the words for null that the reader does not know -/
def missedNulls : List Text := ["", "Null", "NULL"].map ascii

/-- the truth values that the reader does not know -/
def missedTruths : List Text := ["True", "TRUE", "False", "FALSE"].map ascii

/-- what the schema gives a kind of its own and the reader takes for a text -/
inductive Missed (t : Text) : Prop
  | null (h : t ∈ missedNulls)
  | truth (h : t ∈ missedTruths)
  | octal (h : IsOctal t)
  | infinity (h : IsPointedInfinity t)
  | nan (h : t ∈ nanWords)

/-- what the schema takes for a text and the reader for a number -/
inductive Mistaken (t : Text) : Prop
  -- only what stands in front of a zero byte is read
  | zeroByte (hzero : 0 ∈ t) (h : OpensNumber t)
  | blank (hblank : ∃ b ∈ t.head?, isBlank b = true) (h : IsLiteral t)
  | word (sign : Sign) {unsigned : Text} (hword : IsBareWord unsigned)
    (h : t = sign.text ++ unsigned)
  | hexadecimal (sign : Sign) {unsigned : Text} (hwide : IsWideHexadecimal unsigned)
    (h : t = sign.text ++ unsigned) (hcore : ¬ IsHexadecimal t)

end Core

/-! ## Literals -/

theorem opensNumber_of_isLiteral {t : Text} (h : IsLiteral t) : OpensNumber t := by
  refine ⟨?_, .inr ?_⟩
  · intro hnil
    rw [hnil, ← isSome_ofLiteral?_iff] at h
    exact absurd h (by decide)
  · rw [untilZero_eq_self (h.zero_notMem)]
    exact h

theorem opensNumber_of_isUnsigned (sign : Sign) {unsigned : Text} (h : IsUnsigned unsigned) :
    OpensNumber (sign.text ++ unsigned) :=
  opensNumber_of_isLiteral ⟨[], sign, unsigned, rfl, h, rfl⟩

/-- without blanks and sign in front nothing but the word or the digits is read -/
theorem isUnsigned_of_opensNumber {t : Text} (hzero : 0 ∉ t) (hbare : Bare t)
    (h : OpensNumber t) : IsUnsigned t := by
  obtain ⟨hne, h⟩ := h
  rw [untilZero_eq_self hzero] at h
  have hliteral := (isSome_ofLiteral?_iff t).mpr (h.resolve_left hne)
  rw [ofLiteral?_of_bare hbare] at hliteral
  exact (isSome_unsignedLiteral?_iff false t).mp hliteral

theorem isUnsigned_of_isBareWord {t : Text} (h : IsBareWord t) : IsUnsigned t := by
  rcases h with h | ⟨note, hnote, h⟩
  · simp only [List.map_cons, List.map_nil, List.mem_cons, List.not_mem_nil, or_false] at h
    rcases h with h | h | h
    · exact .infinity (.inl h)
    · exact .infinity (.inr h)
    · exact .nan h
  · exact .note hnote h

theorem isUnsigned_of_isWideHexadecimal {t : Text} (h : IsWideHexadecimal t) : IsUnsigned t := by
  obtain ⟨digits, hlower, hdigits⟩ := h
  exact .hexadecimal hlower hdigits

theorem readSign_of_isUnsigned (sign : Sign) {unsigned : Text} (h : IsUnsigned unsigned) :
    (readSign (sign.text ++ unsigned)).2 = unsigned := by
  rw [readSign_text sign fun b hb => (h.bare b hb).2]

theorem isWideHexadecimal_of_isHexadecimal {t : Text} (h : Core.IsHexadecimal t) :
    IsWideHexadecimal t := by
  obtain ⟨digits, hne, hdigits, rfl⟩ := h
  have hlower : (lower digits).all isHexDigit = true := by
    rw [List.all_eq_true]
    intro b hb
    obtain ⟨c, hc, rfl⟩ := List.mem_map.mp hb
    exact isHexDigit_lowerByte (List.all_eq_true.mp hdigits c hc)
  refine ⟨lower digits, List.map_append, lower digits, [], .whole hlower ?_, .absent,
    (List.append_nil _).symm⟩
  exact fun hnil => hne (List.map_eq_nil_iff.mp hnil)

namespace Core

/-! ## Numbers on either side -/

theorem opensNumber_of_isSignedDecimal {t : Text} (h : IsSignedDecimal t) : OpensNumber t := by
  obtain ⟨sign, unsigned, hdecimal, rfl⟩ := h
  exact opensNumber_of_isUnsigned sign (.decimal hdecimal)

theorem missed_of_isNumber {t : Text} (h : IsNumber t) (hopens : ¬ OpensNumber t) : Missed t := by
  cases h with
  | whole sign digits h =>
    rw [h] at hopens
    exact absurd (opensNumber_of_isSignedDecimal (isSignedDecimal_whole sign digits)) hopens
  | octal h => exact .octal h
  | hexadecimal h =>
    have hunsigned := isUnsigned_of_isWideHexadecimal (isWideHexadecimal_of_isHexadecimal h)
    exact absurd (opensNumber_of_isUnsigned .absent hunsigned) hopens
  | decimal h => exact absurd (opensNumber_of_isSignedDecimal h) hopens
  | infinity h => exact .infinity h
  | nan h => exact .nan h

theorem not_opensNumber_of_octal {t : Text} (h : IsOctal t) : ¬ OpensNumber t := by
  intro hopens
  have hzero : 0 ∉ t := IsNumber.zero_notMem (.octal h)
  obtain ⟨digits, -, -, rfl⟩ := h
  have hlower : lower (ascii "0o" ++ digits) = byte '0' :: byte 'o' :: lower digits := rfl
  have hunsigned := isUnsigned_of_opensNumber hzero (bare_of_head rfl (by decide)) hopens
  cases hunsigned with
  | infinity h =>
    rw [hlower] at h
    rcases h with h | h <;> exact absurd (List.cons.inj h).1 (by decide)
  | nan h =>
    rw [hlower] at h
    exact absurd (List.cons.inj h).1 (by decide)
  | note _ h =>
    rw [hlower] at h
    exact absurd (List.cons.inj h).1 (by decide)
  | hexadecimal h _ =>
    rw [hlower] at h
    exact absurd (List.cons.inj (List.cons.inj h).2).1 (by decide)
  | decimal h =>
    refine not_isDecimal_of_mem (c := byte 'o') ?_ (by decide) (by decide) h
    rw [hlower]
    exact List.mem_cons_of_mem _ List.mem_cons_self

theorem Missed.not_opensNumber {t : Text} (h : Missed t) : ¬ OpensNumber t := by
  cases h with
  | null h =>
    have hwords : ∀ word ∈ missedNulls, number? word = none := by decide
    exact not_opensNumber_of_number? (hwords t h)
  | truth h =>
    have hwords : ∀ word ∈ missedTruths, number? word = none := by decide
    exact not_opensNumber_of_number? (hwords t h)
  | octal h => exact not_opensNumber_of_octal h
  | infinity h =>
    obtain ⟨sign, word, hword, rfl⟩ := h
    exact not_opensNumber_of_number? (number?_of_infinity sign hword)
  | nan h => exact not_opensNumber_of_number? (number?_of_nan h)

theorem Missed.notMem_readerWords {t : Text} (h : Missed t) : t ∉ readerWords := by
  have hclosed : ∀ word ∈ (missedNulls ++ missedTruths) ++ nanWords, word ∉ readerWords := by
    decide
  cases h with
  | null h => exact hclosed t (List.mem_append_left _ (List.mem_append_left _ h))
  | truth h => exact hclosed t (List.mem_append_left _ (List.mem_append_right _ h))
  | nan h => exact hclosed t (List.mem_append_right _ h)
  | octal h =>
    obtain ⟨digits, -, -, rfl⟩ := h
    simp [readerWords, ascii, byte]
  | infinity h =>
    have hpointed := readSign_of_isPointedInfinity h
    have hwords : ∀ word ∈ readerWords, (readSign word).2 ∉ infinityWords := by decide
    exact fun hmem => hwords t hmem hpointed

theorem Missed.not_resolves_text {t : Text} (h : Missed t) : ¬ Resolves t .text := by
  intro hresolves
  cases hresolves with
  | text hnull htruth hnumber =>
    cases h with
    | null h =>
      have hwords : ∀ word ∈ missedNulls, word ∈ nulls := by decide
      exact hnull (hwords t h)
    | truth h =>
      have hwords : ∀ word ∈ missedTruths, word ∈ truths := by decide
      exact htruth (hwords t h)
    | octal h => exact hnumber (.octal h)
    | infinity h => exact hnumber (.infinity h)
    | nan h => exact hnumber (.nan h)

theorem mistaken_of_opensNumber {t : Text} (h : OpensNumber t) (hnumber : ¬ IsNumber t) :
    Mistaken t := by
  by_cases hzero : 0 ∈ t
  · exact .zeroByte hzero h
  have hliteral : IsLiteral t := by
    have hrest := h.2
    rw [untilZero_eq_self hzero] at hrest
    exact hrest.resolve_left h.1
  obtain ⟨blanks, sign, unsigned, hblanks, hunsigned, rfl⟩ := hliteral
  cases blanks with
  | cons b blanks =>
    have hblank : isBlank b = true := List.all_eq_true.mp hblanks b List.mem_cons_self
    exact .blank ⟨b, rfl, hblank⟩ ⟨b :: blanks, sign, unsigned, hblanks, hunsigned, rfl⟩
  | nil =>
    cases hunsigned with
    | infinity h =>
      refine .word sign (.inl ?_) rfl
      rcases h with h | h <;> (rw [h]; decide)
    | nan h =>
      refine .word sign (.inl ?_) rfl
      rw [h]
      decide
    | note hnote h => exact .word sign (.inr ⟨_, hnote, h⟩) rfl
    | hexadecimal h hdigits =>
      exact .hexadecimal sign ⟨_, h, hdigits⟩ rfl fun hcore => hnumber (.hexadecimal hcore)
    | decimal h => exact absurd (.decimal ⟨sign, unsigned, h, rfl⟩) hnumber

theorem Mistaken.opensNumber {t : Text} (h : Mistaken t) : OpensNumber t := by
  cases h with
  | zeroByte _ h => exact h
  | blank _ h => exact opensNumber_of_isLiteral h
  | word sign hword h =>
    rw [h]
    exact opensNumber_of_isUnsigned sign (isUnsigned_of_isBareWord hword)
  | hexadecimal sign hwide h _ =>
    rw [h]
    exact opensNumber_of_isUnsigned sign (isUnsigned_of_isWideHexadecimal hwide)

theorem not_isNumber_of_blank {t : Text} (hblank : ∃ b ∈ t.head?, isBlank b = true) :
    ¬ IsNumber t := by
  intro h
  obtain ⟨b, hb, hblank⟩ := hblank
  obtain ⟨rest, rfl⟩ := List.head?_eq_some_iff.mp hb
  -- a blank is neither a sign nor the start of a number
  have hunsigned : readSign (b :: rest) = (false, b :: rest) := by
    refine readSign_of_unsigned fun c hc => ?_
    rw [← Option.mem_some_iff.mp hc]
    refine ⟨?_, ?_⟩ <;> (rintro rfl; exact absurd hblank (by decide))
  obtain ⟨c, tail, hc, hfirst⟩ := h.head
  rw [hunsigned] at hc
  obtain ⟨rfl, -⟩ := List.cons.inj hc
  rw [(bareByte_of_lt (bounds_of_digit_or_point hfirst).1).1] at hblank
  cases hblank

theorem not_isNumber_of_isBareWord (sign : Sign) {unsigned : Text} (h : IsBareWord unsigned) :
    ¬ IsNumber (sign.text ++ unsigned) := by
  intro hnumber
  obtain ⟨c, rest, hc, hfirst⟩ := hnumber.head
  rw [readSign_of_isUnsigned sign (isUnsigned_of_isBareWord h)] at hc
  -- the word starts with a letter
  have hletter : lowerByte c = byte 'i' ∨ lowerByte c = byte 'n' := by
    have hlower : lower unsigned = lowerByte c :: lower rest := by rw [hc]; rfl
    rcases h with h | ⟨note, -, h⟩
    · rw [hlower] at h
      simp only [List.map_cons, List.map_nil, List.mem_cons, List.not_mem_nil, or_false] at h
      rcases h with h | h | h
      · exact .inl (List.cons.inj h).1
      · exact .inl (List.cons.inj h).1
      · exact .inr (List.cons.inj h).1
    · rw [hlower] at h
      exact .inr (List.cons.inj h).1
  have hlt := (bounds_of_digit_or_point hfirst).2
  rw [lowerByte_of_lt hlt] at hletter
  rcases hletter with rfl | rfl <;> exact absurd hlt (by decide)

theorem not_isNumber_of_isWideHexadecimal (sign : Sign) {unsigned : Text}
    (h : IsWideHexadecimal unsigned) (hcore : ¬ IsHexadecimal (sign.text ++ unsigned)) :
    ¬ IsNumber (sign.text ++ unsigned) := by
  intro hnumber
  have hunsigned := readSign_of_isUnsigned sign (isUnsigned_of_isWideHexadecimal h)
  obtain ⟨digits, hlower, -⟩ := h
  have hdecimal : ¬ IsSignedDecimal (sign.text ++ unsigned) := by
    intro hdecimal
    have hdecimal' := readSign_of_isSignedDecimal hdecimal
    rw [hunsigned] at hdecimal'
    exact not_isDecimal_of_hexadecimal hlower hdecimal'
  cases hnumber with
  | whole other digits h => exact hdecimal (h ▸ isSignedDecimal_whole other digits)
  | decimal h => exact hdecimal h
  | hexadecimal h => exact hcore h
  | octal h =>
    obtain ⟨octal, -, -, h⟩ := h
    rw [h] at hunsigned
    rw [← hunsigned] at hlower
    exact absurd (List.cons.inj (List.cons.inj hlower).2).1 (by decide)
  | infinity h =>
    have hwords : ∀ word ∈ infinityWords, (lower word).head? ≠ some (byte '0') := by decide
    have hword := readSign_of_isPointedInfinity h
    rw [hunsigned] at hword
    exact hwords unsigned hword (by rw [hlower]; rfl)
  | nan h =>
    have hwords : ∀ word ∈ nanWords, (lower (readSign word).2).head? ≠ some (byte '0') := by decide
    exact hwords _ h (by rw [hunsigned, hlower]; rfl)

theorem Mistaken.not_isNumber {t : Text} (h : Mistaken t) : ¬ IsNumber t := by
  cases h with
  | zeroByte hzero _ => exact fun hnumber => hnumber.zero_notMem hzero
  | blank hblank _ => exact not_isNumber_of_blank hblank
  | word sign hword h =>
    rw [h]
    exact not_isNumber_of_isBareWord sign hword
  | hexadecimal sign hwide h hcore =>
    rw [h] at hcore ⊢
    exact not_isNumber_of_isWideHexadecimal sign hwide hcore

theorem Mistaken.resolves_text {t : Text} (h : Mistaken t) : Resolves t .text := by
  have hwords : ∀ word ∈ nulls ++ truths, number? word = none := by decide
  have hword : t ∉ nulls ++ truths := fun hmem =>
    not_opensNumber_of_number? (hwords t hmem) h.opensNumber
  rw [List.mem_append, not_or] at hword
  exact .text hword.1 hword.2 h.not_isNumber

/-- elsewhere the reader follows the schema -/
theorem resolves_kind {t : Text} (hmissed : ¬ Missed t) (hmistaken : ¬ Mistaken t) :
    Resolves t (plainValue t).kind := by
  by_cases hword : t ∈ readerWords
  · simp only [readerWords, List.map_cons, List.map_nil, List.mem_cons, List.not_mem_nil,
      or_false] at hword
    rcases hword with rfl | rfl | rfl | rfl
    · exact .null (by decide)
    · exact .null (by decide)
    · exact .truth (by decide)
    · exact .truth (by decide)
  by_cases hopens : OpensNumber t
  · obtain ⟨x, hx⟩ := plainValue_of_opensNumber hopens
    rw [hx]
    by_contra hkind
    exact hmistaken (mistaken_of_opensNumber hopens fun hnumber => hkind (.number hnumber))
  · rw [plainValue_of_not_opensNumber hword hopens]
    have hnulls : ∀ word ∈ nulls, word ∈ readerWords ∨ word ∈ missedNulls := by decide
    have htruths : ∀ word ∈ truths, word ∈ readerWords ∨ word ∈ missedTruths := by decide
    refine .text ?_ ?_ ?_
    · intro hnull
      exact hmissed (.null ((hnulls t hnull).resolve_left hword))
    · intro htruth
      exact hmissed (.truth ((htruths t htruth).resolve_left hword))
    · intro hnumber
      exact hmissed (missed_of_isNumber hnumber hopens)

theorem resolves_kind_iff (t : Text) :
    Resolves t (plainValue t).kind ↔ ¬ Missed t ∧ ¬ Mistaken t := by
  constructor
  · intro h
    refine ⟨fun hmissed => ?_, fun hmistaken => ?_⟩
    · rw [plainValue_of_not_opensNumber hmissed.notMem_readerWords hmissed.not_opensNumber] at h
      exact hmissed.not_resolves_text h
    · obtain ⟨x, hx⟩ := plainValue_of_opensNumber hmistaken.opensNumber
      rw [hx] at h
      cases h.unique hmistaken.resolves_text
  · intro h
    exact resolves_kind h.1 h.2

end Core

/-! ## Words -/

/-- letters only -/
def IsWord (t : Text) : Prop := t ≠ [] ∧ ∀ b ∈ lower t, byte 'a' ≤ b ∧ b ≤ byte 'z'

theorem IsWord.notMem_lower {t : Text} (h : IsWord t) {b : UInt8} (hb : b < byte 'a') :
    b ∉ lower t := fun hmem => absurd (h.2 b hmem).1 (UInt8.not_le.mpr hb)

theorem IsWord.bare {t : Text} (h : IsWord t) : Bare t := by
  refine bare_of_lower fun b hb => bareByte_of_lt ?_
  obtain ⟨rest, hlower⟩ := List.head?_eq_some_iff.mp hb
  exact UInt8.lt_of_lt_of_le (by decide) (h.2 b (hlower ▸ List.mem_cons_self)).1

/-- three words of letters open a number, and no others -/
theorem opensNumber_of_isWord_iff {t : Text} (h : IsWord t) :
    OpensNumber t ↔ lower t ∈ ["inf", "infinity", "nan"].map ascii := by
  constructor
  · intro hopens
    have hzero : 0 ∉ t := fun hzero => h.notMem_lower (by decide) (zero_mem_lower hzero)
    cases isUnsigned_of_opensNumber hzero h.bare hopens with
    | infinity hword => rcases hword with hword | hword <;> (rw [hword]; decide)
    | nan hword =>
      rw [hword]
      decide
    | note _ hword =>
      refine absurd ?_ (h.notMem_lower (b := byte ')') (by decide))
      rw [hword]
      simp
    | hexadecimal hword _ =>
      refine absurd ?_ (h.notMem_lower (b := byte '0') (by decide))
      rw [hword]
      exact List.mem_cons_self
    | decimal hdecimal =>
      obtain ⟨b, rest, rfl, hfirst⟩ := hdecimal.head
      have hlt := (bounds_of_digit_or_point hfirst).2
      refine absurd ?_ (h.notMem_lower (UInt8.lt_trans hlt (by decide)))
      rw [lower, List.map_cons, lowerByte_of_lt hlt]
      exact List.mem_cons_self
  · intro hword
    exact opensNumber_of_isUnsigned .absent (isUnsigned_of_isBareWord (.inl hword))

/-! ## What is read -/

/-- what is read from a plain scalar, and where the schema has another kind for it -/
structure Typed (t : Text) : Prop where
  null : plainValue t = .null ↔ t = ascii "~" ∨ t = ascii "null"
  truth : ∀ b, plainValue t = .bool b ↔ t = ascii (if b then "true" else "false")
  number : (∃ x, plainValue t = .number x) ↔ OpensNumber t
  text : ∀ u, plainValue t = .text u ↔ u = t ∧ t ∉ readerWords ∧ ¬ OpensNumber t
  schema : Core.Resolves t (plainValue t).kind ↔ ¬ Core.Missed t ∧ ¬ Core.Mistaken t
  missed : Core.Missed t → plainValue t = .text t ∧ ¬ Core.Resolves t .text
  mistaken : Core.Mistaken t → (plainValue t).kind = .number ∧ Core.Resolves t .text
  word : IsWord t → ((plainValue t).kind = .number ↔
    lower t ∈ ["inf", "infinity", "nan"].map ascii)

/-- The reader follows the schema except for the texts that it misses, which it reads as texts,
and those that it mistakes for numbers, three words of letters among them. -/
theorem plainValue_typed (t : Text) : Typed t where
  null := plainValue_eq_null_iff
  truth := fun b => plainValue_eq_bool_iff
  number := exists_plainValue_eq_number_iff
  text := fun u => plainValue_eq_text_iff
  schema := Core.resolves_kind_iff t
  missed := by
    intro h
    exact ⟨plainValue_of_not_opensNumber h.notMem_readerWords h.not_opensNumber,
      h.not_resolves_text⟩
  mistaken := by
    intro h
    exact ⟨kind_plainValue_eq_number_iff.mpr h.opensNumber, h.resolves_text⟩
  word := by
    intro h
    rw [kind_plainValue_eq_number_iff]
    exact opensNumber_of_isWord_iff h

/-- two words of the schema are read as texts, and an ordinary word as a number -/
theorem plainValue_leaves_schema :
    (plainValue (ascii "inf")).kind = .number ∧ Core.Resolves (ascii "inf") .text ∧
      plainValue (ascii "True") = .text (ascii "True") ∧ Core.Resolves (ascii "True") .truth ∧
      plainValue (ascii "0o17") = .text (ascii "0o17") ∧ Core.Resolves (ascii "0o17") .number := by
  refine ⟨by decide, ?_, rfl, ?_, rfl, ?_⟩
  · exact Core.Mistaken.resolves_text (.word .absent (.inl (by decide)) rfl)
  · exact .truth (by decide)
  · exact .number (.octal ⟨ascii "17", by decide, by decide, rfl⟩)

end Node
end VolumeClaim
