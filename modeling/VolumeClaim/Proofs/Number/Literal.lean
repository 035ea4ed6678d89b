import VolumeClaim.Number.Literal
import VolumeClaim.Proofs.Text
import VolumeClaim.Proofs.Text.Scientific

/-!
# The grammar of number literals

    literal  ::= blank* sign? unsigned
    unsigned ::= "inf" | "infinity" | "nan" | "nan(" note ")" | "0x" hexadecimal | decimal

Letters may stand in either case.  `isSome_ofLiteral?_iff`: these texts are read as numbers, and
no others.
-/

namespace VolumeClaim.Binary64
open Text Grammar

inductive IsUnsigned (t : Text) : Prop
  | infinity (h : lower t = ascii "inf" ∨ lower t = ascii "infinity")
  | nan (h : lower t = ascii "nan")
  | note {note : Text} (hnote : note.all isNoteByte = true)
      (h : lower t = ascii "nan(" ++ (note ++ [byte ')']))
  | hexadecimal {digits : Text} (h : lower t = ascii "0x" ++ digits)
      (hdigits : IsScientific isHexDigit (byte 'p') (byte 'P') digits)
  | decimal (h : IsDecimal t)

def IsLiteral (t : Text) : Prop :=
  ∃ (blanks : Text) (sign : Sign) (unsigned : Text), blanks.all isBlank = true ∧
    IsUnsigned unsigned ∧ t = blanks ++ (sign.text ++ unsigned)

/-! ## The first byte -/

/-- neither a blank nor a sign in front -/
def Bare (t : Text) : Prop := ∀ b ∈ t.head?, isBlank b = false ∧ b ≠ byte '-' ∧ b ≠ byte '+'

theorem lowerByte_of_lt {b : UInt8} (h : b < 65) : lowerByte b = b := by
  rw [lowerByte, if_neg]
  simp only [Bool.and_eq_true, decide_eq_true_eq, not_and]
  intro hle
  exact absurd h (UInt8.not_lt.mpr hle)

/-- blanks and signs come before the point, the digits and the letters -/
theorem bareByte_of_lt {b : UInt8} (h : 45 < b) :
    isBlank b = false ∧ b ≠ byte '-' ∧ b ≠ byte '+' := by
  have hne (c : UInt8) (hc : c ≤ 45) : b ≠ c := by
    intro heq
    rw [heq] at h
    exact absurd h (UInt8.not_lt.mpr hc)
  refine ⟨?_, hne _ (by decide), hne _ (by decide)⟩
  rw [isBlank, Bool.or_eq_false_iff, Bool.and_eq_false_iff, decide_eq_false_iff_not,
    decide_eq_false_iff_not, decide_eq_false_iff_not]
  exact ⟨hne 32 (by decide), .inr fun hle =>
    absurd h (UInt8.not_lt.mpr (UInt8.le_trans hle (by decide)))⟩

/-- no letter is a blank or a sign, so the case does not matter -/
theorem bare_of_lower {t : Text} (h : Bare (lower t)) : Bare t := by
  intro b hb
  obtain ⟨rest, rfl⟩ : ∃ rest, t = b :: rest := List.head?_eq_some_iff.mp hb
  have hlower := h (lowerByte b) rfl
  by_cases hlt : b < 65
  · rw [lowerByte_of_lt hlt] at hlower
    exact hlower
  · exact bareByte_of_lt (UInt8.lt_of_lt_of_le (by decide) (UInt8.not_lt.mp hlt))

theorem bare_of_head {t : Text} {b : UInt8} (h : t.head? = some b)
    (hb : isBlank b = false ∧ b ≠ byte '-' ∧ b ≠ byte '+') : Bare t := by
  intro c hc
  rw [h, Option.mem_some_iff] at hc
  rw [← hc]
  exact hb

/-- digits and the point stand between the signs and the letters -/
theorem bounds_of_digit_or_point {b : UInt8} (h : isDigit b = true ∨ b = byte '.') :
    45 < b ∧ b < 65 := by
  rcases h with hdigit | rfl
  · rw [isDigit, Bool.and_eq_true, decide_eq_true_eq, decide_eq_true_eq] at hdigit
    exact ⟨UInt8.lt_of_lt_of_le (by decide) hdigit.1, UInt8.lt_of_le_of_lt hdigit.2 (by decide)⟩
  · decide

theorem bare_of_isDecimal {t : Text} (h : IsDecimal t) : Bare t := by
  obtain ⟨b, rest, rfl, hb⟩ := h.head
  exact bare_of_head rfl (bareByte_of_lt (bounds_of_digit_or_point hb).1)

theorem IsUnsigned.bare {t : Text} (h : IsUnsigned t) : Bare t := by
  cases h with
  | infinity h =>
    refine bare_of_lower ?_
    rcases h with h | h <;> (rw [h]; exact bare_of_head rfl (by decide))
  | nan h =>
    refine bare_of_lower ?_
    rw [h]
    exact bare_of_head rfl (by decide)
  | note _ h =>
    refine bare_of_lower ?_
    rw [h]
    exact bare_of_head rfl (by decide)
  | hexadecimal h _ =>
    refine bare_of_lower ?_
    rw [h]
    exact bare_of_head rfl (by decide)
  | decimal h => exact bare_of_isDecimal h

/-! ## Words -/

theorem dropWhile_eq_bracket_iff (t : Text) : t.dropWhile isNoteByte = [byte ')'] ↔
    ∃ note, note.all isNoteByte = true ∧ t = note ++ [byte ')'] := by
  constructor
  · intro h
    refine ⟨t.takeWhile isNoteByte, List.all_takeWhile, ?_⟩
    rw [← h, List.takeWhile_append_dropWhile]
  · rintro ⟨note, hnote, rfl⟩
    exact dropWhile_append hnote (stops_cons (by decide) [])

theorem isNaNWord_iff (t : Text) : isNaNWord t = true ↔
    t = ascii "nan" ∨
      ∃ note, note.all isNoteByte = true ∧ t = ascii "nan(" ++ (note ++ [byte ')']) := by
  have hopen : ∀ rest : Text, ascii "nan(" ++ rest = ascii "nan" ++ byte '(' :: rest :=
    fun _ => rfl
  constructor
  · intro h
    unfold isNaNWord at h
    split at h
    · cases h
    · rename_i hafter
      exact .inl (List.append_eq_of_isPrefixOf?_eq_some hafter).symm
    · rename_i b rest hafter
      rw [Bool.and_eq_true, decide_eq_true_eq, decide_eq_true_eq] at h
      obtain ⟨rfl, hdrop⟩ := h
      obtain ⟨note, hall, rfl⟩ := (dropWhile_eq_bracket_iff rest).mp hdrop
      exact .inr ⟨note, hall, (List.append_eq_of_isPrefixOf?_eq_some hafter).symm.trans (hopen _).symm⟩
  · rintro (rfl | ⟨note, hall, rfl⟩)
    · rfl
    · rw [hopen, isNaNWord, isPrefixOf?_append]
      dsimp only
      rw [(dropWhile_eq_bracket_iff _).mpr ⟨note, hall, rfl⟩]
      rfl

/-! ## Hexadecimal notation -/

theorem setApart_hexadecimal : SetApart isHexDigit (byte 'p') (byte 'P') := by
  refine ⟨by decide, ?_⟩
  rintro b (rfl | rfl) <;> decide

theorem isSome_hexadecimalLiteral?_iff (negative : Bool) (t : Text) :
    (hexadecimalLiteral? negative t).isSome = true ↔
      IsScientific isHexDigit (byte 'p') (byte 'P') t :=
  isSome_read_iff setApart_hexadecimal _ t

/-- decimal notation has no letter but its mark -/
theorem not_isDecimal_of_mem {t : Text} {c : UInt8} (hc : c ∈ lower t) (hletter : 65 ≤ c)
    (hne : c ≠ byte 'e') : ¬ IsDecimal t := by
  intro hd
  obtain ⟨b, hb, rfl⟩ := List.mem_map.mp hc
  have hdigit : isDigit b = false := by
    by_contra hdigit
    rw [Bool.not_eq_false, isDigit, Bool.and_eq_true, decide_eq_true_eq, decide_eq_true_eq]
      at hdigit
    have hlt : b < 65 := UInt8.lt_of_le_of_lt hdigit.2 (by decide)
    rw [lowerByte_of_lt hlt] at hletter
    exact absurd hlt (UInt8.not_lt.mpr hletter)
  have hkinds := hd.of_mem hb
  rw [hdigit] at hkinds
  simp only [List.mem_cons, List.not_mem_nil, or_false] at hkinds
  rcases hkinds with h | h | rfl | rfl | rfl | rfl | rfl
  · cases h
  · cases h
  · exact hne rfl
  · exact hne rfl
  all_goals exact absurd hletter (by decide)

theorem not_isDecimal_of_hexadecimal {t digits : Text} (h : lower t = ascii "0x" ++ digits) :
    ¬ IsDecimal t := by
  have hx : byte 'x' ∈ lower t := by
    rw [h]
    exact List.mem_cons_of_mem _ List.mem_cons_self
  exact not_isDecimal_of_mem hx (by decide) (by decide)

/-! ## Literals -/

theorem isSome_unsignedLiteral?_iff (negative : Bool) (t : Text) :
    (unsignedLiteral? negative t).isSome = true ↔ IsUnsigned t := by
  have hdecimal : (decimalLiteral? negative t).isSome = true ↔ IsDecimal t := by
    rw [decimalLiteral?, Option.isSome_map]
    exact Scientific.isSome_ofText?_iff t
  unfold unsignedLiteral?
  dsimp only
  constructor
  · intro h
    split at h
    · rename_i hword
      exact .infinity hword
    · split at h
      · rename_i hnan
        rcases (isNaNWord_iff _).mp hnan with hnan | ⟨note, hnote, hword⟩
        · exact .nan hnan
        · exact .note hnote hword
      · split at h
        · rename_i digits hafter
          exact .hexadecimal (List.append_eq_of_isPrefixOf?_eq_some hafter).symm
            ((isSome_hexadecimalLiteral?_iff negative digits).mp h)
        · exact .decimal (hdecimal.mp h)
  · intro h
    split
    · rfl
    · rename_i hinfinity
      split
      · rfl
      · rename_i hnan
        rw [isNaNWord_iff] at hnan
        cases h with
        | infinity h => exact absurd h hinfinity
        | nan h => exact absurd (.inl h) hnan
        | note hnote h => exact absurd (.inr ⟨_, hnote, h⟩) hnan
        | hexadecimal h hdigits =>
          rw [h, isPrefixOf?_append]
          exact (isSome_hexadecimalLiteral?_iff negative _).mpr hdigits
        | decimal h =>
          split
          · rename_i hafter
            exact absurd h (not_isDecimal_of_hexadecimal (List.append_eq_of_isPrefixOf?_eq_some hafter).symm)
          · exact hdecimal.mpr h

theorem ofLiteral?_of_bare {t : Text} (h : Bare t) : ofLiteral? t = unsignedLiteral? false t := by
  have hdrop : t.dropWhile isBlank = t := dropWhile_append (w := []) rfl fun b hb => (h b hb).1
  unfold ofLiteral?
  rw [hdrop, readSign_of_unsigned fun b hb => (h b hb).2]

/-- the literals are the texts that are read as numbers -/
theorem isSome_ofLiteral?_iff (t : Text) : (ofLiteral? t).isSome = true ↔ IsLiteral t := by
  unfold ofLiteral?
  constructor
  · intro h
    cases hr : readSign (t.dropWhile isBlank) with
    | mk negative unsigned =>
      rw [hr] at h
      obtain ⟨sign, hsign, -⟩ := sign_of_readSign hr
      refine ⟨t.takeWhile isBlank, sign, unsigned, List.all_takeWhile,
        (isSome_unsignedLiteral?_iff negative unsigned).mp h, ?_⟩
      rw [← hsign, List.takeWhile_append_dropWhile]
  · rintro ⟨blanks, sign, unsigned, hblanks, hunsigned, rfl⟩
    have hbare := hunsigned.bare
    have hstop : Stops isBlank (sign.text ++ unsigned) := by
      cases sign with
      | absent => exact fun b hb => (hbare b hb).1
      | plus | minus => exact stops_cons (by decide) unsigned
    rw [dropWhile_append hblanks hstop, readSign_text sign fun b hb => (hbare b hb).2]
    exact (isSome_unsignedLiteral?_iff _ unsigned).mpr hunsigned

/-! ## Bytes of a literal -/

theorem lowerByte_lowerByte (b : UInt8) : lowerByte (lowerByte b) = lowerByte b := by
  have h65 : (65 : UInt8).toNat = 65 := rfl
  have h90 : (90 : UInt8).toNat = 90 := rfl
  have h32 : (32 : UInt8).toNat = 32 := rfl
  unfold lowerByte
  simp only [Bool.and_eq_true, decide_eq_true_eq, UInt8.le_iff_toNat_le, h65, h90]
  split
  · rw [if_neg]
    rw [UInt8.toNat_add, h32]
    omega
  · rfl

theorem isHexDigit_lowerByte {b : UInt8} (h : isHexDigit b = true) :
    isHexDigit (lowerByte b) = true := by
  unfold isHexDigit at h ⊢
  rw [lowerByte_lowerByte]
  by_cases hlt : b < 65
  · rw [lowerByte_of_lt hlt] at h ⊢
    exact h
  · have hdigit : isDigit b = false := by
      rw [isDigit, Bool.and_eq_false_iff]
      refine .inr (decide_eq_false fun hle => hlt (UInt8.lt_of_le_of_lt hle (by decide)))
    rw [hdigit, Bool.false_or] at h
    rw [h, Bool.or_true]

theorem zero_mem_lower {t : Text} (h : 0 ∈ t) : 0 ∈ lower t :=
  List.mem_map_of_mem (f := lowerByte) h

theorem IsUnsigned.zero_notMem {t : Text} (h : IsUnsigned t) : 0 ∉ t := by
  intro hzero
  have hlower := zero_mem_lower hzero
  cases h with
  | infinity h => rcases h with h | h <;> exact absurd (h ▸ hlower) (by decide)
  | nan h => exact absurd (h ▸ hlower) (by decide)
  | note hnote h =>
    rw [h] at hlower
    rcases List.mem_append.mp hlower with hlower | hlower
    · exact absurd hlower (by decide)
    rcases List.mem_append.mp hlower with hlower | hlower
    · exact absurd (List.all_eq_true.mp hnote 0 hlower) (by decide)
    · exact absurd hlower (by decide)
  | hexadecimal h hdigits =>
    rw [h] at hlower
    rcases List.mem_append.mp hlower with hlower | hlower
    · exact absurd hlower (by decide)
    · exact absurd (hdigits.of_mem hlower) (by decide)
  | decimal h => exact absurd (h.of_mem hzero) (by decide)

theorem IsLiteral.zero_notMem {t : Text} (h : IsLiteral t) : 0 ∉ t := by
  obtain ⟨blanks, sign, unsigned, hblanks, hunsigned, rfl⟩ := h
  intro hzero
  rcases List.mem_append.mp hzero with hzero | hzero
  · exact absurd (List.all_eq_true.mp hblanks 0 hzero) (by decide)
  rcases List.mem_append.mp hzero with hzero | hzero
  · cases sign <;> exact absurd hzero (by decide)
  · exact hunsigned.zero_notMem hzero

end VolumeClaim.Binary64
