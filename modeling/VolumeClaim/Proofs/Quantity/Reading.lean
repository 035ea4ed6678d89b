import VolumeClaim.Proofs.Quantity.Scale
import VolumeClaim.Proofs.Quantity.Value
import VolumeClaim.Proofs.Text

/-!
# Reading literals

Reading is compared with the grammar of `Grammar.Literal`.

* `parse_text_of_bounded`  a literal with a bounded exponent is read as `quantityOf` says;
* `parse_text_of_not_bounded` one with an exponent out of bounds is refused for its suffix;
* `literal_of_parse`       nothing else is read, but for literals with a zero byte behind them;
* `value_quantityOf`       and what is read stands for the number that the literal denotes;
* `quoted_infix_message_iff` a message names the text that was refused if no zero byte cuts it.
-/

namespace VolumeClaim.Quantity
open Text Grammar

/-! ## Numbers -/

/-- what a number of the grammar is read as -/
def numeralOf : Number → Numeral
  | .whole w => ⟨w.text, []⟩
  | .pointed w none => ⟨w.text, []⟩
  | .pointed w (some f) => ⟨w.text, f.text⟩
  | .fraction f => ⟨[], f.text⟩

theorem digits_numeralOf_ne_nil (n : Number) : (numeralOf n).digits ≠ [] := by
  have hleft : ∀ (d : Digits) (t : Text), d.text ++ t ≠ [] := fun d t e =>
    d.ne_nil (List.append_eq_nil_iff.mp e).1
  cases n with
  | whole w => exact hleft w []
  | pointed w f =>
    cases f with
    | none => exact hleft w []
    | some f => exact hleft w f.text
  | fraction f => exact f.ne_nil

theorem all_digits_numeralOf (n : Number) : (numeralOf n).digits.all isDigit = true := by
  have hboth : ∀ a b : Text, a.all isDigit = true → b.all isDigit = true →
      (a ++ b).all isDigit = true := fun a b ha hb => by
    rw [List.all_append, ha, hb]
    rfl
  cases n with
  | whole w => exact hboth _ _ w.all_digits rfl
  | pointed w f =>
    cases f with
    | none => exact hboth _ _ w.all_digits rfl
    | some f => exact hboth _ _ w.all_digits f.all_digits
  | fraction f => exact f.all_digits

/-- a number is its digits, the point moved behind the last one -/
theorem value_numeralOf (n : Number) : n.value =
    decimalValue (numeralOf n).digits * 10 ^ (-((numeralOf n).fraction.length : ℤ)) := by
  have hwhole : ∀ w : Digits, (w.value : ℚ) =
      decimalValue (w.text ++ []) * 10 ^ (-(([] : Text).length : ℤ)) := fun w => by
    rw [List.append_nil, List.length_nil, Nat.cast_zero, neg_zero, zpow_zero, mul_one]
    rfl
  cases n with
  | whole w => exact hwhole w
  | pointed w f =>
    cases f with
    | none => exact hwhole w
    | some f =>
      have hne : (10 : ℚ) ^ f.text.length ≠ 0 := by positivity
      show (w.value : ℚ) + f.value / 10 ^ f.text.length =
        (decimalValue (w.text ++ f.text) : ℕ) * 10 ^ (-(f.text.length : ℤ))
      rw [decimalValue_append, zpow_neg, zpow_natCast]
      show (decimalValue w.text : ℚ) + decimalValue f.text / 10 ^ f.text.length = _
      push_cast
      field_simp
  | fraction f =>
    show (decimalValue f.text : ℚ) / 10 ^ f.text.length =
      decimalValue f.text * 10 ^ (-(f.text.length : ℤ))
    rw [zpow_neg, zpow_natCast, div_eq_mul_inv]

theorem read_number (n : Number) {rest : Text} (hr : Stops isDigit rest)
    (hdot : rest.head? ≠ some (byte '.')) :
    Numeral.read isDigit (n.text ++ rest) = (numeralOf n, rest) := by
  have hpoint : isDigit (byte '.') = false := by decide
  cases n with
  | whole w => exact Numeral.read_whole w.all_digits hr hdot
  | pointed w f =>
    cases f with
    | none =>
      have h := Numeral.read_pointed w.all_digits (f := []) rfl hr hpoint
      show Numeral.read isDigit (w.text ++ [byte '.'] ++ rest) = _
      rw [List.append_assoc]
      exact h
    | some f =>
      have h := Numeral.read_pointed w.all_digits f.all_digits hr hpoint
      show Numeral.read isDigit (w.text ++ byte '.' :: f.text ++ rest) = _
      rw [List.append_assoc]
      exact h
  | fraction f => exact Numeral.read_pointed (w := []) rfl f.all_digits hr hpoint

theorem number_of_read {t rest : Text} {n : Numeral} (h : Numeral.read isDigit t = (n, rest))
    (hne : n.digits ≠ []) : ∃ m : Number, t = m.text ++ rest ∧ n = numeralOf m := by
  obtain ⟨w, f⟩ := n
  obtain ⟨hw, hf, ht⟩ := Numeral.read_spec h
  dsimp only at hw hf ht
  rcases ht with ⟨ht, rfl⟩ | ht
  · have hw0 : w ≠ [] := fun e => hne (by rw [e]; rfl)
    exact ⟨.whole ⟨w, hw0, hw⟩, ht, rfl⟩
  · by_cases hw0 : w = []
    · subst hw0
      exact ⟨.fraction ⟨f, hne, hf⟩, ht, rfl⟩
    · by_cases hf0 : f = []
      · subst hf0
        refine ⟨.pointed ⟨w, hw0, hw⟩ none, ?_, rfl⟩
        show t = w ++ [byte '.'] ++ rest
        rw [ht, List.append_assoc]
        rfl
      · refine ⟨.pointed ⟨w, hw0, hw⟩ (some ⟨f, hf0, hf⟩), ?_, rfl⟩
        show t = w ++ byte '.' :: f ++ rest
        rw [ht, List.append_assoc]
        rfl

/-! ## Literals -/

/-- what a literal is read as -/
def quantityOf (l : Literal) : Quantity :=
  ofNumeral (decide (l.sign = .minus)) (numeralOf l.number) (scaleOf l.suffix)

theorem wellFormed_quantityOf (l : Literal) : (quantityOf l).WellFormed := by
  refine ⟨Magnitude.canonical_ofDigits (all_digits_numeralOf l.number), fun hz => ?_⟩
  have hz : (Magnitude.ofDigits (numeralOf l.number).digits).isZero = true := hz
  show (_ && !(Magnitude.ofDigits (numeralOf l.number).digits).isZero) = false
  rw [hz, Bool.not_true, Bool.and_false]

theorem family_quantityOf (l : Literal) : (quantityOf l).family = l.family := by
  show (scaleOf l.suffix).family = l.suffix.family
  cases l.suffix <;> rfl

theorem size_quantityOf (l : Literal) : (quantityOf l).size = l.number.value * l.suffix.value := by
  have hm : (quantityOf l).magnitude.value = decimalValue (numeralOf l.number).digits :=
    Magnitude.value_ofDigits (all_digits_numeralOf l.number)
  have ht : (quantityOf l).tens =
      (scaleOf l.suffix).tens + -((numeralOf l.number).fraction.length : ℤ) := rfl
  have h2 : (quantityOf l).twos = (scaleOf l.suffix).twos := rfl
  unfold size
  rw [hm, ht, h2, zpow_add₀ (by norm_num), value_numeralOf, value_scaleOf]
  ring

/-- a literal is read as the number that it denotes -/
theorem value_quantityOf (l : Literal) : (quantityOf l).value = l.value := by
  have hs := size_quantityOf l
  have hfactor : l.value = l.sign.factor * (quantityOf l).size := by
    rw [hs]
    exact mul_assoc _ _ _
  rw [hfactor]
  cases hz : (quantityOf l).isZero with
  | true =>
    have hw := wellFormed_quantityOf l
    rw [value_eq_zero hw hz, size_eq_zero hw hz, mul_zero]
  | false =>
    have hn : (quantityOf l).negative = decide (l.sign = .minus) := by
      have hz : (Magnitude.ofDigits (numeralOf l.number).digits).isZero = false := hz
      show (decide (l.sign = .minus) && !(Magnitude.ofDigits _).isZero) = _
      rw [hz, Bool.not_false, Bool.and_true]
    unfold value
    rw [hn]
    cases l.sign <;> simp [Sign.factor]

theorem stops_suffix (s : Suffix) : Stops isDigit s.text := by
  cases s with
  | binary u => cases u <;> exact stops_cons (by decide) _
  | decimal u => cases u <;> first | exact stops_nil _ | exact stops_cons (by decide) _
  | exponent mark _ _ => cases mark <;> exact stops_cons (by decide) _

theorem head?_suffix_ne_point (s : Suffix) : s.text.head? ≠ some (byte '.') := by
  cases s with
  | binary u => cases u <;> decide
  | decimal u => cases u <;> decide
  | exponent mark _ _ => cases mark <;> exact of_decide_eq_false rfl

theorem head_number (n : Number) (rest : Text) :
    ∃ b t, n.text ++ rest = b :: t ∧ (isDigit b = true ∨ b = byte '.') := by
  have hdigits : ∀ (d : Digits) (u : Text),
      ∃ b t, d.text ++ u = b :: t ∧ (isDigit b = true ∨ b = byte '.') := fun d u => by
    cases hd : d.text with
    | nil => exact absurd hd d.ne_nil
    | cons b t =>
      have hall := d.all_digits
      rw [hd, List.all_cons, Bool.and_eq_true] at hall
      exact ⟨b, t ++ u, rfl, .inl hall.1⟩
  cases n with
  | whole w => exact hdigits w rest
  | pointed w f =>
    cases f with
    | none =>
      show ∃ b t, w.text ++ [byte '.'] ++ rest = b :: t ∧ _
      rw [List.append_assoc]
      exact hdigits w _
    | some f =>
      show ∃ b t, w.text ++ byte '.' :: f.text ++ rest = b :: t ∧ _
      rw [List.append_assoc]
      exact hdigits w _
  | fraction f => exact ⟨_, _, rfl, .inr rfl⟩

theorem readSign_number (s : Sign) (n : Number) (rest : Text) :
    readSign (s.text ++ (n.text ++ rest)) = (decide (s = .minus), n.text ++ rest) := by
  obtain ⟨b, t, hbt, hb⟩ := head_number n rest
  refine readSign_text s fun x hx => ?_
  rw [hbt, List.head?_cons, Option.mem_some_iff] at hx
  subst hx
  constructor
  · rintro rfl
    exact absurd hb (by decide)
  · rintro rfl
    exact absurd hb (by decide)

/-- the steps of the reader on a sign and a number with anything behind them that the number
does not take -/
theorem parse_sign_number (s : Sign) (n : Number) {rest : Text} (hr : Stops isDigit rest)
    (hdot : rest.head? ≠ some (byte '.')) :
    parse (s.text ++ (n.text ++ rest)) = (Scale.parse? rest).elim
      (.error (.unknownSuffix (s.text ++ (n.text ++ rest)) rest))
      fun scale => .ok (ofNumeral (decide (s = .minus)) (numeralOf n) scale) := by
  have hne : s.text ++ (n.text ++ rest) ≠ [] := fun e => by
    obtain ⟨b, t, hbt, -⟩ := head_number n rest
    rw [hbt] at e
    exact absurd (List.append_eq_nil_iff.mp e).2 (List.cons_ne_nil b t)
  unfold parse
  rw [if_neg hne, readSign_number]
  dsimp only
  rw [read_number n hr hdot]
  dsimp only
  have hdigits := digits_numeralOf_ne_nil n
  cases Scale.parse? rest with
  | none => exact if_neg hdigits
  | some scale => exact if_neg hdigits

theorem parse_text_of_bounded (l : Literal) (h : l.Bounded) :
    parse l.text = .ok (quantityOf l) := by
  have hp := parse_sign_number l.sign l.number (stops_suffix l.suffix)
    (head?_suffix_ne_point l.suffix)
  rw [parse?_of_bounded l.suffix h] at hp
  exact hp

theorem parse_text_of_not_bounded (l : Literal) (h : ¬ l.Bounded) :
    parse l.text = .error (.unknownSuffix l.text l.suffix.text) := by
  have hp := parse_sign_number l.sign l.number (stops_suffix l.suffix)
    (head?_suffix_ne_point l.suffix)
  rw [parse?_of_not_bounded l.suffix h] at hp
  exact hp

/-- a literal without suffix and a zero byte behind it -/
def ZeroEnded (l : Literal) (raw : Text) : Prop :=
  l.suffix = .decimal .one ∧ raw = l.text ++ [0]

theorem parse_zeroEnded {l : Literal} {raw : Text} (h : ZeroEnded l raw) :
    parse raw = .ok (quantityOf l) := by
  obtain ⟨hs, rfl⟩ := h
  have hstop : Stops isDigit ([0] : Text) := stops_cons (by decide) []
  have hp := parse_sign_number l.sign l.number hstop (by decide)
  have hl : l.text ++ [0] = l.sign.text ++ (l.number.text ++ [0]) := by
    show l.sign.text ++ (l.number.text ++ l.suffix.text) ++ [0] = _
    rw [hs]
    show l.sign.text ++ (l.number.text ++ []) ++ [0] = _
    rw [List.append_nil, List.append_assoc]
  rw [hl, hp]
  unfold quantityOf
  rw [hs]
  rfl

/-- whatever is read is a literal of the grammar, or one with a zero byte behind it -/
theorem literal_of_parse {raw : Text} {q : Quantity} (h : parse raw = .ok q) :
    ∃ l : Literal, (l.Bounded ∧ raw = l.text ∨ ZeroEnded l raw) ∧ q = quantityOf l := by
  unfold parse at h
  split at h
  · cases h
  · cases hs : readSign raw with
    | mk negative unsigned =>
      obtain ⟨s, hraw, hneg⟩ := sign_of_readSign hs
      rw [hs] at h
      dsimp only at h
      cases hr : Numeral.read isDigit unsigned with
      | mk numeral suffix =>
        rw [hr] at h
        dsimp only at h
        split at h
        · cases h
        · rename_i hne
          obtain ⟨n, hun, hnum⟩ := number_of_read hr hne
          split at h
          · cases h
          · rename_i scale hscale
            cases h
            subst hneg hnum
            rcases suffix_of_parse? hscale with ⟨x, hx, rfl, rfl⟩ | ⟨rfl, rfl⟩
            · refine ⟨⟨s, n, x⟩, .inl ⟨hx, ?_⟩, rfl⟩
              rw [hraw, hun]
              rfl
            · refine ⟨⟨s, n, .decimal .one⟩, .inr ⟨rfl, ?_⟩, rfl⟩
              show raw = s.text ++ (n.text ++ []) ++ [0]
              rw [hraw, hun, List.append_nil, List.append_assoc]

theorem wellFormed_of_parse {raw : Text} {q : Quantity} (h : parse raw = .ok q) :
    q.WellFormed := by
  obtain ⟨l, -, rfl⟩ := literal_of_parse h
  exact wellFormed_quantityOf l

/-- **Every literal of the grammar with a bounded exponent is read**, as the exact number that
it denotes and in its family of units. -/
theorem parse_literal_exact (l : Literal) (h : l.Bounded) : ∃ q, parse l.text = .ok q ∧
    q.value = l.value ∧ (q.value = 0 → q.negative = false) ∧ q.family = l.family := by
  have hw := wellFormed_quantityOf l
  refine ⟨quantityOf l, parse_text_of_bounded l h, value_quantityOf l, fun hz => ?_,
    family_quantityOf l⟩
  exact hw.zero_positive ((value_eq_zero_iff hw).mp hz)

/-- a literal with every part: `-07.50E-003` -/
def longLiteral : Literal where
  sign := .minus
  number := .pointed ⟨ascii "07", by decide, by decide⟩ (some ⟨ascii "50", by decide, by decide⟩)
  suffix := .exponent .upper .minus ⟨ascii "003", by decide, by decide⟩

theorem parse_longLiteral : longLiteral.Bounded ∧ ∃ q, parse (ascii "-07.50E-003") = .ok q ∧
    q.value = longLiteral.value ∧ (q.value = 0 → q.negative = false) ∧
    q.family = .decimalExponent := by
  have hb : longLiteral.Bounded := by
    show decimalValue (ascii "003") ≤ 1024
    decide
  exact ⟨hb, parse_literal_exact longLiteral hb⟩

/-! ## What is refused -/

theorem raw_of_parse_error {raw : Text} {e : LiteralError} (h : parse raw = .error e) :
    e.raw = raw := by
  unfold parse at h
  split at h
  · rename_i hraw
    cases h
    exact hraw.symm
  · dsimp only at h
    split at h
    · cases h
      rfl
    · split at h
      · cases h
        rfl
      · cases h

/-- a message names the text in quotes, unless a zero byte in the text ends the message early -/
theorem quoted_infix_message_iff (e : LiteralError) :
    ascii "\"" ++ e.raw ++ ascii "\"" <:+: e.message ↔ 0 ∉ e.raw := by
  constructor
  · intro h hmem
    refine zero_notMem_untilZero _ (h.subset ?_)
    exact List.mem_append_left _ (List.mem_append_right _ hmem)
  · intro h
    have hlead : (0 : UInt8) ∉ ascii "unable to parse quantity \"" := by decide
    have hclose : (0 : UInt8) ∉ ascii "\": " := by decide
    have hopen : ascii "unable to parse quantity \"" =
      ascii "unable to parse quantity " ++ ascii "\"" := rfl
    have hcolon : ascii "\": " = ascii "\"" ++ ascii ": " := rfl
    refine ⟨ascii "unable to parse quantity ", ascii ": " ++ untilZero e.reason, ?_⟩
    unfold LiteralError.message
    simp only [List.append_assoc]
    rw [untilZero_append hlead, untilZero_append h, untilZero_append hclose, hopen, hcolon]
    simp only [List.append_assoc]

theorem zero_notMem_digits {t : Text} (h : t.all isDigit = true) : 0 ∉ t := fun hmem =>
  absurd (List.all_eq_true.mp h 0 hmem) (by decide)

theorem zero_notMem_text (l : Literal) : 0 ∉ l.text := by
  have hdot : ∀ t : Text, 0 ∉ t → 0 ∉ byte '.' :: t := fun t ht hmem =>
    (List.mem_cons.mp hmem).elim (by decide) ht
  have hsign : ∀ s : Sign, 0 ∉ s.text := fun s => by cases s <;> decide
  have hnumber : 0 ∉ l.number.text := by
    cases l.number with
    | whole w => exact zero_notMem_digits w.all_digits
    | pointed w f =>
      have hw := zero_notMem_digits w.all_digits
      cases f with
      | none => exact fun hmem => (List.mem_append.mp hmem).elim hw (by decide)
      | some f =>
        have hf := hdot _ (zero_notMem_digits f.all_digits)
        exact fun hmem => (List.mem_append.mp hmem).elim hw hf
    | fraction f => exact hdot _ (zero_notMem_digits f.all_digits)
  have hsuffix : 0 ∉ l.suffix.text := by
    cases l.suffix with
    | binary u => cases u <;> decide
    | decimal u => cases u <;> decide
    | exponent mark s d =>
      have hmark : (0 : UInt8) ≠ mark.byte := by cases mark <;> decide
      intro hmem
      rcases List.mem_cons.mp hmem with h | h
      · exact hmark h
      · exact (List.mem_append.mp h).elim (hsign s) (zero_notMem_digits d.all_digits)
  intro hmem
  rcases List.mem_append.mp hmem with h | h
  · exact hsign _ h
  · exact (List.mem_append.mp h).elim hnumber hsuffix

theorem not_text_of_zeroEnded {l : Literal} {raw : Text} (h : ZeroEnded l raw) (m : Literal) :
    raw ≠ m.text := by
  rintro rfl
  refine zero_notMem_text m ?_
  rw [h.2]
  exact List.mem_append_right _ (by decide)

/-- **Nothing but the literals of the grammar is read, apart from a literal without suffix that
a single zero byte follows**: the byte is dropped.  All other texts are refused with a message
that names them, in full if they hold no zero byte. -/
theorem parse_sound_but_zero_byte (raw : Text) :
    ((∃ q, parse raw = .ok q) ↔
      (∃ l : Literal, l.Bounded ∧ raw = l.text) ∨ ∃ l : Literal, ZeroEnded l raw) ∧
    ((∃ l : Literal, ZeroEnded l raw) → ∀ l : Literal, raw ≠ l.text) ∧
    (∀ q, parse raw = .ok q → ∃ l : Literal, (raw = l.text ∨ ZeroEnded l raw) ∧
      q.value = l.value ∧ q.family = l.family) ∧
    (∀ e, parse raw = .error e →
      (ascii "\"" ++ raw ++ ascii "\"" <:+: e.message ↔ 0 ∉ raw)) := by
  refine ⟨⟨?_, ?_⟩, ?_, ?_, ?_⟩
  · rintro ⟨q, hq⟩
    obtain ⟨l, hl | hl, -⟩ := literal_of_parse hq
    · exact .inl ⟨l, hl⟩
    · exact .inr ⟨l, hl⟩
  · rintro (⟨l, hb, rfl⟩ | ⟨l, hl⟩)
    · exact ⟨_, parse_text_of_bounded l hb⟩
    · exact ⟨_, parse_zeroEnded hl⟩
  · rintro ⟨l, hl⟩
    exact not_text_of_zeroEnded hl
  · intro q hq
    obtain ⟨l, hl, rfl⟩ := literal_of_parse hq
    exact ⟨l, hl.imp_left And.right, value_quantityOf l, family_quantityOf l⟩
  · intro e he
    have hraw := raw_of_parse_error he
    rw [← hraw]
    exact quoted_infix_message_iff e

/-- a zero byte is read as no suffix, though no literal has one -/
theorem zero_byte_read_as_suffix :
    parse (ascii "1" ++ [0]) = .ok ⟨false, ⟨[1]⟩, 0, 0, .decimalSI⟩ ∧
      ¬ ∃ l : Literal, ascii "1" ++ [0] = l.text := by
  refine ⟨rfl, ?_⟩
  rintro ⟨l, hl⟩
  refine zero_notMem_text l ?_
  rw [← hl]
  exact List.mem_append_right _ (by decide)

end VolumeClaim.Quantity
