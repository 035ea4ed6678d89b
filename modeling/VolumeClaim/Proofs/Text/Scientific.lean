import VolumeClaim.Proofs.Text.Sign

/-!
# The grammar of scientific notation

    scientific ::= numeral power
    numeral    ::= digits | digits "." digits? | "." digits
    power      ::= "" | mark sign? digits

The digits of the numeral are of a given kind, those of the power are decimal, and the mark is one
of two bytes.  `IsScientific.read` and `isScientific_of_read` compare the grammar with what
`Numeral.read` leaves for `power?`, for all kinds of digits that are told from the point and the
marks; `isSome_read_iff` is what a reader of the whole takes.
-/

namespace VolumeClaim.Text
open Grammar

/-- digits with at most one point -/
inductive IsNumeral (p : UInt8 → Bool) : Text → Prop
  | whole {w : Text} (hw : w.all p = true) (hne : w ≠ []) : IsNumeral p w
  | pointed {w f : Text} (hw : w.all p = true) (hf : f.all p = true) (hne : w ++ f ≠ []) :
      IsNumeral p (w ++ byte '.' :: f)

inductive IsPower (lowerMark upperMark : UInt8) : Text → Prop
  | absent : IsPower lowerMark upperMark []
  | marked {b : UInt8} (hb : b = lowerMark ∨ b = upperMark) (sign : Sign) (digits : Digits) :
      IsPower lowerMark upperMark (b :: (sign.text ++ digits.text))

def IsScientific (p : UInt8 → Bool) (lowerMark upperMark : UInt8) (t : Text) : Prop :=
  ∃ numeral power, IsNumeral p numeral ∧ IsPower lowerMark upperMark power ∧ t = numeral ++ power

/-! ## Powers -/

theorem isSome_wholeNumber?_iff (t : Text) : (wholeNumber? t).isSome = true ↔
    ∃ (sign : Sign) (digits : Digits), t = sign.text ++ digits.text := by
  unfold wholeNumber?
  constructor
  · intro h
    cases hr : readSign t with
    | mk negative digits =>
      obtain ⟨sign, ht, -⟩ := sign_of_readSign hr
      rw [hr] at h
      dsimp only at h
      split at h
      · cases h
      · rename_i hd
        rw [Bool.or_eq_true, not_or, List.isEmpty_iff, Bool.not_eq_true', Bool.not_eq_false] at hd
        exact ⟨sign, ⟨digits, hd.1, hd.2⟩, ht⟩
  · rintro ⟨sign, digits, rfl⟩
    rw [readSign_digits]
    dsimp only
    rw [if_neg]
    · rfl
    · rw [Bool.or_eq_true, not_or, List.isEmpty_iff, Bool.not_eq_true', Bool.not_eq_false]
      exact ⟨digits.ne_nil, digits.all_digits⟩

section
variable {lowerMark upperMark : UInt8}

theorem isSome_power?_iff (t : Text) :
    (power? lowerMark upperMark t).isSome = true ↔ IsPower lowerMark upperMark t := by
  constructor
  · intro h
    cases t with
    | nil => exact .absent
    | cons b t =>
      rw [power?] at h
      split at h
      · rename_i hb
        obtain ⟨sign, digits, rfl⟩ := (isSome_wholeNumber?_iff t).mp h
        exact .marked hb sign digits
      · cases h
  · intro h
    cases h with
    | absent => rfl
    | marked hb sign digits =>
      rw [power?, if_pos hb]
      exact (isSome_wholeNumber?_iff _).mpr ⟨sign, digits, rfl⟩

/-! ## Numerals in front of powers -/

variable {p : UInt8 → Bool}

/-- a numeral starts with a digit or the point -/
theorem IsNumeral.head {t : Text} (h : IsNumeral p t) :
    ∃ b rest, t = b :: rest ∧ (p b = true ∨ b = byte '.') := by
  have hdigit : ∀ {w : Text}, w.all p = true → w ≠ [] → ∃ b rest, w = b :: rest ∧ p b = true := by
    intro w hw hne
    obtain ⟨b, rest, rfl⟩ := List.exists_cons_of_ne_nil hne
    exact ⟨b, rest, rfl, List.all_eq_true.mp hw b List.mem_cons_self⟩
  cases h with
  | whole hw hne =>
    obtain ⟨b, rest, ht, hb⟩ := hdigit hw hne
    exact ⟨b, rest, ht, .inl hb⟩
  | @pointed w f hw hf hne =>
    by_cases hw0 : w = []
    · subst hw0
      exact ⟨byte '.', f, rfl, .inr rfl⟩
    · obtain ⟨b, rest, rfl, hb⟩ := hdigit hw hw0
      exact ⟨b, rest ++ byte '.' :: f, rfl, .inl hb⟩

theorem isNumeral_of_read {t rest : Text} {n : Numeral} (h : Numeral.read p t = (n, rest))
    (hne : n.digits ≠ []) : ∃ numeral, IsNumeral p numeral ∧ t = numeral ++ rest := by
  obtain ⟨w, f⟩ := n
  obtain ⟨hw, hf, ht⟩ := Numeral.read_spec h
  dsimp only at hw hf ht
  rcases ht with ⟨ht, rfl⟩ | ht
  · refine ⟨w, .whole hw fun e => hne ?_, ht⟩
    rw [e]
    rfl
  · refine ⟨w ++ byte '.' :: f, .pointed hw hf hne, ?_⟩
    rw [ht, List.append_assoc, List.cons_append]

theorem IsNumeral.read {numeral rest : Text} (h : IsNumeral p numeral) (hr : Stops p rest)
    (hdot : rest.head? ≠ some (byte '.')) (hpoint : p (byte '.') = false) :
    ∃ n, Numeral.read p (numeral ++ rest) = (n, rest) ∧ n.digits ≠ [] := by
  cases h with
  | whole hw hne => exact ⟨⟨numeral, []⟩, Numeral.read_whole hw hr hdot, by simpa [Numeral.digits]⟩
  | @pointed w f hw hf hne =>
    refine ⟨⟨w, f⟩, ?_, hne⟩
    rw [List.append_assoc, List.cons_append]
    exact Numeral.read_pointed hw hf hr hpoint

/-! ## The whole -/

/-- digits that are told from the point and from the marks -/
def SetApart (p : UInt8 → Bool) (lowerMark upperMark : UInt8) : Prop :=
  p (byte '.') = false ∧ ∀ b, b = lowerMark ∨ b = upperMark → p b = false ∧ b ≠ byte '.'

theorem IsScientific.head {t : Text} (h : IsScientific p lowerMark upperMark t) :
    ∃ b rest, t = b :: rest ∧ (p b = true ∨ b = byte '.') := by
  obtain ⟨numeral, power, hnumeral, -, rfl⟩ := h
  obtain ⟨b, rest, rfl, hb⟩ := hnumeral.head
  exact ⟨b, rest ++ power, rfl, hb⟩

/-- digits, points, marks and signs are all there is -/
theorem IsScientific.of_mem {t : Text} (h : IsScientific p lowerMark upperMark t) {b : UInt8}
    (hb : b ∈ t) : p b = true ∨ isDigit b = true ∨ b = lowerMark ∨ b = upperMark ∨
      b ∈ [byte '.', byte '-', byte '+'] := by
  obtain ⟨numeral, power, hnumeral, hpower, rfl⟩ := h
  rcases List.mem_append.mp hb with hb | hb
  · cases hnumeral with
    | whole hw _ => exact .inl (List.all_eq_true.mp hw b hb)
    | pointed hw hf _ =>
      rcases List.mem_append.mp hb with hb | hb
      · exact .inl (List.all_eq_true.mp hw b hb)
      · rcases List.mem_cons.mp hb with rfl | hb
        · simp
        · exact .inl (List.all_eq_true.mp hf b hb)
  · cases hpower with
    | absent => cases hb
    | marked hmark sign digits =>
      rcases List.mem_cons.mp hb with rfl | hb
      · rcases hmark with hmark | hmark <;> simp [hmark]
      · rcases List.mem_append.mp hb with hb | hb
        · cases sign with
          | absent => cases hb
          | plus | minus => simp [List.mem_singleton.mp hb]
        · exact .inr (.inl (List.all_eq_true.mp digits.all_digits b hb))

theorem isScientific_of_read {t rest : Text} {n : Numeral} (h : Numeral.read p t = (n, rest))
    (hne : n.digits ≠ []) (hpower : (power? lowerMark upperMark rest).isSome = true) :
    IsScientific p lowerMark upperMark t := by
  obtain ⟨numeral, hnumeral, ht⟩ := isNumeral_of_read h hne
  exact ⟨numeral, rest, hnumeral, (isSome_power?_iff rest).mp hpower, ht⟩

theorem IsScientific.read (hp : SetApart p lowerMark upperMark) {t : Text}
    (h : IsScientific p lowerMark upperMark t) : ∃ n rest, Numeral.read p t = (n, rest) ∧
      n.digits ≠ [] ∧ (power? lowerMark upperMark rest).isSome = true := by
  obtain ⟨numeral, power, hnumeral, hpower, rfl⟩ := h
  have hread : ∃ n, Numeral.read p (numeral ++ power) = (n, power) ∧ n.digits ≠ [] := by
    cases hpower with
    | absent => exact hnumeral.read (stops_nil p) nofun hp.1
    | marked hb sign digits =>
      obtain ⟨hstop, hdot⟩ := hp.2 _ hb
      exact hnumeral.read (stops_cons hstop _) (fun e => hdot (Option.some.inj e)) hp.1
  obtain ⟨n, hn, hne⟩ := hread
  exact ⟨n, power, hn, hne, (isSome_power?_iff power).mpr hpower⟩

/-- readers of the whole take a numeral with a digit and the power that is left -/
theorem isSome_read_iff (hp : SetApart p lowerMark upperMark) {α : Type} (f : Int → α) (t : Text) :
    (if (Numeral.read p t).1.digits.isEmpty then none
      else (power? lowerMark upperMark (Numeral.read p t).2).map f).isSome = true ↔
      IsScientific p lowerMark upperMark t := by
  constructor
  · intro h
    split at h
    · cases h
    · rename_i hne
      rw [Option.isSome_map] at h
      exact isScientific_of_read rfl (fun e => hne (List.isEmpty_iff.mpr e)) h
  · intro h
    obtain ⟨n, rest, hr, hne, hpower⟩ := h.read hp
    rw [hr, if_neg (fun e => hne (List.isEmpty_iff.mp e)), Option.isSome_map]
    exact hpower

end

/-! ## Decimal notation -/

theorem setApart_decimal : SetApart isDigit (byte 'e') (byte 'E') := by
  refine ⟨by decide, ?_⟩
  rintro b (rfl | rfl) <;> decide

/-- a decimal number without a sign -/
def IsDecimal (t : Text) : Prop := IsScientific isDigit (byte 'e') (byte 'E') t

theorem Scientific.isSome_ofText?_iff (t : Text) :
    (Scientific.ofText? t).isSome = true ↔ IsDecimal t :=
  isSome_read_iff setApart_decimal _ t

end VolumeClaim.Text
