import VolumeClaim.Proofs.Quantity.CanonicalText

/-!
# Quantities with checked exponents

Reading, comparing and writing quantities once more, step by step, with every exponent and count on
the way put into a signed word and every power that is multiplied by into an unsigned one: if a
number does not fit, or a loop ends before its work is done, there is no result.

* `int?`, `unsigned?`   a number as a signed word, and as an unsigned one;
* `parse_eq`            reading a text has a result, and it is the one without checks;
* `magnitudeAt_eq`      so has the comparison of magnitudes with small exponents;
* `whole_eq`, `stripTens_eq`, `exponentText_eq`, `suffixText_eq` and each step of writing one.
-/

namespace VolumeClaim.Quantity.Checked
open Text Grammar

/-! ## Words -/

/-- what a signed word of 32 bits holds -/
def FitsWord (n : ℤ) : Prop := -2 ^ 31 ≤ n ∧ n < 2 ^ 31

-- decided on natural numbers: a difference from `2 ^ 31` would be taken apart one by one
instance (n : ℤ) : Decidable (FitsWord n) :=
  decidable_of_iff (n.toNat < 2 ^ 31 ∧ (-n).toNat ≤ 2 ^ 31) (by unfold FitsWord; omega)

/-- the number, if a signed word holds it -/
def int? (n : ℤ) : Option ℤ := if FitsWord n then some n else none

/-- a signed word as an unsigned one, if it is not negative -/
def unsigned? (n : ℤ) : Option ℕ := if 0 ≤ n ∧ FitsWord n then some n.toNat else none

theorem int?_eq_some_iff {n m : ℤ} : int? n = some m ↔ FitsWord n ∧ n = m := by
  unfold int?
  split <;> simp_all

theorem unsigned?_eq_some_iff {n : ℤ} {k : ℕ} : unsigned? n = some k ↔ FitsWord n ∧ n = k := by
  unfold unsigned?
  split
  · rename_i h
    rw [Option.some_inj]
    exact ⟨fun hk => ⟨h.2, by omega⟩, fun hk => by omega⟩
  · rename_i h
    constructor
    · intro hk
      cases hk
    · rintro ⟨hfits, rfl⟩
      exact absurd ⟨Int.natCast_nonneg k, hfits⟩ h

theorem int?_eq {n : ℤ} (hlow : -2 ^ 31 ≤ n) (hhigh : n < 2 ^ 31) : int? n = some n :=
  int?_eq_some_iff.mpr ⟨⟨hlow, hhigh⟩, rfl⟩

theorem unsigned?_eq {n : ℤ} (hlow : 0 ≤ n) (hhigh : n < 2 ^ 31) : unsigned? n = some n.toNat :=
  unsigned?_eq_some_iff.mpr ⟨by unfold FitsWord; omega, (Int.toNat_of_nonneg hlow).symm⟩

example : int? (2 ^ 31) = none := by decide

/-! ## Reading an exponent -/

def pushDigit (v : ℤ) (d : UInt8) : Option ℤ := do
  let shifted ← int? (v * 10)
  let digit ← int? (d.toNat - 48)
  int? (shifted + digit)

/-- the digits of an exponent behind a value -/
def exponentValue : ℤ → Text → Option (Option ℤ)
  | v, [] => some (some v)
  | v, d :: ds =>
    if isDigit d then do
      let next ← pushDigit v d
      if maxExponent < next then some none else exponentValue next ds
    else some none

def signed (negative : Bool) (v : ℤ) : Option ℤ := if negative then int? (-v) else some v

def exponent (t : Text) : Option (Option ℤ) :=
  let (negative, digits) := readSign t
  if digits = [] then some none
  else do
    match ← exponentValue 0 digits with
    | none => some none
    | some v => (signed negative v).map some

def scale (t : Text) : Option (Option Scale) :=
  match binarySuffixes.idxOf? t with
  | some i => (unsigned? (10 * (i + 1))).map fun twos => some ⟨.binarySI, 0, twos⟩
  | none => match t with
    | [] => some (some ⟨.decimalSI, 0, 0⟩)
    | [b] => some (byteScale? b)
    | b :: rest =>
      if b = byte 'e' ∨ b = byte 'E' then
        (exponent rest).map fun answer => answer.map fun tens => ⟨.decimalExponent, tens, 0⟩
      else some none

theorem pushDigit_eq {v : ℕ} {d : UInt8} (hd : isDigit d = true) (hv : v ≤ 1024) :
    pushDigit v d = some ((10 * v + digitValue d : ℕ) : ℤ) := by
  have hlt := digitValue_lt hd
  have hvalue : (d.toNat : ℤ) - 48 = digitValue d := (Int.ofNat_sub (le_toNat_of_isDigit hd)).symm
  have hsum : (v : ℤ) * 10 + digitValue d = (10 * v + digitValue d : ℕ) := by
    push_cast
    ring
  unfold pushDigit
  simp (disch := omega) only [hvalue, hsum, int?_eq, Option.bind_eq_bind, Option.bind_some]

/-- read on behind digits that are within the bound -/
theorem exponentValue_eq {s t : Text} {v : ℕ} (h : exponentValue? s = some v) :
    exponentValue v t = some ((exponentValue? (s ++ t)).map Nat.cast) := by
  induction t generalizing s v with
  | nil =>
    rw [List.append_nil, h]
    rfl
  | cons d t ih =>
    -- what was read so far is within the bound, so one more digit fits whatever it is
    have hv : v ≤ 1024 := by
      obtain ⟨-, hle, rfl⟩ := exponentValue?_eq_some_iff.mp h
      exact hle
    have hnext := exponentValue?_concat s d
    rw [h, Option.bind_some] at hnext
    have hsplit : s ++ d :: t = s ++ [d] ++ t := (List.append_assoc s [d] t).symm
    rw [hsplit, exponentValue]
    split
    · rename_i hd
      rw [if_pos hd] at hnext
      rw [pushDigit_eq hd hv, Option.bind_eq_bind, Option.bind_some]
      by_cases hle : 10 * v + digitValue d ≤ maxExponent
      · have hsmall : ¬ (maxExponent : ℤ) < (10 * v + digitValue d : ℕ) := by
          exact_mod_cast not_lt.mpr hle
        rw [if_pos hle] at hnext
        rw [if_neg hsmall, ih hnext]
      · have hlarge : (maxExponent : ℤ) < (10 * v + digitValue d : ℕ) := by
          exact_mod_cast not_le.mp hle
        rw [if_neg hle] at hnext
        rw [if_pos hlarge, exponentValue?_append_of_none hnext]
        rfl
    · rename_i hd
      rw [if_neg hd] at hnext
      rw [exponentValue?_append_of_none hnext]
      rfl

theorem signed_eq {v : ℕ} (h : v ≤ 1024) (negative : Bool) :
    signed negative v = some (if negative then -(v : ℤ) else v) := by
  cases negative with
  | false => rfl
  | true => exact int?_eq (by omega) (by omega)

theorem exponent_eq (t : Text) : exponent t = some (exponent? t) := by
  unfold exponent exponent?
  obtain ⟨negative, digits⟩ := readSign t
  dsimp only
  split
  · rfl
  · have hvalue : exponentValue 0 digits = some ((exponentValue? digits).map Nat.cast) :=
      exponentValue_eq (s := []) rfl
    rw [hvalue]
    cases hv : exponentValue? digits with
    | none => rfl
    | some v =>
      obtain ⟨-, hle, rfl⟩ := exponentValue?_eq_some_iff.mp hv
      show (signed negative (decimalValue digits)).map some = _
      rw [signed_eq hle]
      rfl

example : exponent (ascii "9999999999") = some none := by decide

theorem scale_eq (t : Text) : scale t = some (Scale.parse? t) := by
  unfold scale Scale.parse? binaryScale?
  cases hi : binarySuffixes.idxOf? t with
  | some i =>
    have hlt : i < 6 := (List.idxOf?_eq_some_iff.mp hi).1
    have htwos : (10 * (i + 1) : ℤ).toNat = 10 * (i + 1) := by omega
    have hfits : unsigned? (10 * (i + 1)) = some (10 * (i + 1)) := by
      rw [unsigned?_eq (by omega) (by omega), htwos]
    show (unsigned? (10 * (i + 1))).map _ = _
    rw [hfits]
    rfl
  | none =>
    cases t with
    | nil => rfl
    | cons b rest =>
      cases rest with
      | nil => rfl
      | cons c rest =>
        show (if b = byte 'e' ∨ b = byte 'E' then _ else _) = some (if _ then _ else _)
        rw [exponent_eq]
        split <;> rfl

/-! ## Reading a literal -/

/-- what stands in front of a suffix, and the suffix -/
structure Scan where
  digits : Text
  fractionDigits : ℤ
  rest : Text

/-- the count of digits behind the point, with one more digit -/
def counted (pointed : Bool) (count : ℤ) : Option ℤ :=
  if pointed then int? (count + 1) else some count

/-- the longest number in front, byte by byte -/
def scan : Bool → Text → ℤ → Text → Option Scan
  | _, digits, count, [] => some ⟨digits, count, []⟩
  | pointed, digits, count, b :: rest =>
    if isDigit b then do
      let next ← counted pointed count
      scan pointed (digits ++ [b]) next rest
    else if b = byte '.' ∧ pointed = false then scan true digits count rest
    else some ⟨digits, count, b :: rest⟩

def ofScan (negative : Bool) (s : Scan) (scale : Scale) : Option Quantity := do
  let tens ← int? (scale.tens - s.fractionDigits)
  let magnitude := Magnitude.ofDigits s.digits
  some ⟨negative && !magnitude.isZero, magnitude, tens, scale.twos, scale.family⟩

def parse (raw : Text) : Option (Except LiteralError Quantity) :=
  if raw = [] then some (.error .empty)
  else do
    let (negative, unsigned) := readSign raw
    let s ← scan false [] 0 unsigned
    if s.digits = [] then some (.error (.noDigits raw))
    else do
      match ← scale s.rest with
      | none => some (.error (.unknownSuffix raw s.rest))
      | some scale => (ofScan negative s scale).map .ok

theorem scan_pointed {t digits : Text} {count : ℤ} (hcount : 0 ≤ count)
    (hroom : count + t.length < 2 ^ 31) : scan true digits count t =
      some ⟨digits ++ t.takeWhile isDigit, count + (t.takeWhile isDigit).length,
        t.dropWhile isDigit⟩ := by
  induction t generalizing digits count with
  | nil => simp [scan]
  | cons b t ih =>
    rw [List.length_cons, Nat.cast_add, Nat.cast_one] at hroom
    rw [scan]
    split
    · rename_i hb
      have hnext : counted true count = some (count + 1) := int?_eq (by omega) (by omega)
      rw [hnext, Option.bind_eq_bind, Option.bind_some, ih (by omega) (by omega),
        List.takeWhile_cons_of_pos hb, List.dropWhile_cons_of_pos hb, List.length_cons,
        List.append_assoc, List.singleton_append]
      push_cast
      rw [add_assoc, add_comm 1]
    · rename_i hb
      rw [if_neg (by simp), List.takeWhile_cons_of_neg hb, List.dropWhile_cons_of_neg hb]
      simp

theorem scan_eq {t digits : Text} (hroom : t.length < 2 ^ 31) : scan false digits 0 t =
    some ⟨digits ++ (Numeral.read isDigit t).1.digits, (Numeral.read isDigit t).1.fraction.length,
      (Numeral.read isDigit t).2⟩ := by
  induction t generalizing digits with
  | nil => simp [scan, Numeral.read, Numeral.digits]
  | cons b t ih =>
    rw [List.length_cons] at hroom
    rw [scan]
    split
    · rename_i hb
      have hnext : counted false 0 = some 0 := rfl
      rw [hnext, Option.bind_eq_bind, Option.bind_some, ih (by omega),
        Numeral.read_cons_of_pos t hb, List.append_assoc]
      rfl
    · rename_i hb
      rw [Bool.not_eq_true] at hb
      by_cases hpoint : b = byte '.'
      · rw [if_pos ⟨hpoint, rfl⟩, scan_pointed (le_refl 0) (by omega), hpoint,
          Numeral.read_cons_point t (by decide), zero_add]
        rfl
      · rw [if_neg fun h => hpoint h.1, Numeral.read_cons_of_neg t hb hpoint]
        simp [Numeral.digits]

theorem ofScan_eq {negative : Bool} {n : Numeral} {s : Scale} (rest : Text)
    (hlow : -1024 ≤ s.tens) (hhigh : s.tens ≤ 1024) (hroom : n.fraction.length < 2 ^ 30) :
    ofScan negative ⟨n.digits, n.fraction.length, rest⟩ s = some (ofNumeral negative n s) := by
  have htens : int? (s.tens - n.fraction.length) = some (s.tens - n.fraction.length) :=
    int?_eq (by omega) (by omega)
  rw [ofScan, htens]
  rfl

/-- **Reading counts no further than a word holds**, whether the text is read or refused. -/
theorem parse_eq {raw : Text} (h : raw.length < 2 ^ 30) : parse raw = some (Quantity.parse raw) := by
  unfold parse Quantity.parse
  split
  · rfl
  · cases hsign : readSign raw with
    | mk negative unsigned =>
      cases hread : Numeral.read isDigit unsigned with
      | mk n rest =>
        have hunsigned := length_le_of_readSign hsign
        have hdigits := Numeral.length_digits_le_of_read hread
        have hfraction := n.length_fraction_le
        dsimp only
        rw [scan_eq (by omega), Option.bind_eq_bind, Option.bind_some, List.nil_append, hread]
        dsimp only
        split
        · rfl
        · rw [scale_eq, Option.bind_eq_bind, Option.bind_some]
          cases hs : Scale.parse? rest with
          | none => rfl
          | some s =>
            obtain ⟨hlow, hhigh, -⟩ := bounds_of_parse? hs
            show (ofScan negative ⟨n.digits, n.fraction.length, rest⟩ s).map _ = _
            rw [ofScan_eq rest hlow hhigh (by omega)]
            rfl

/-! ## Comparing -/

def magnitudeAt (q : Quantity) (tens twos : ℤ) : Option Magnitude := do
  let tensAbove ← int? (q.tens - tens)
  let tensFactor ← unsigned? tensAbove
  let twosAbove ← int? (q.twos - twos)
  let twosFactor ← unsigned? twosAbove
  some ((q.magnitude.mulPow10 tensFactor).mulPow2 twosFactor)

def answer : Ordering → ℤ
  | .lt => -1
  | .eq => 0
  | .gt => 1

def compareMagnitudes (a b : Quantity) : Option ℤ := do
  let tens := min a.tens b.tens
  let twos := min (a.twos : ℤ) b.twos
  let left ← magnitudeAt a tens twos
  let right ← magnitudeAt b tens twos
  int? (answer (left.compare right))

def compare (a b : Quantity) : Option ℤ := do
  let left ← int? a.sign
  let right ← int? b.sign
  if left ≠ right then int? (if left < right then -1 else 1)
  else if left = 0 then int? 0
  else do
    let magnitude ← compareMagnitudes a b
    if left < 0 then int? (-magnitude) else some magnitude

theorem magnitudeAt_eq {q : Quantity} {tens : ℤ} {twos : ℕ} (htens : tens ≤ q.tens)
    (hroom : q.tens - tens < 2 ^ 31) (htwos : twos ≤ q.twos) (hsmall : q.twos ≤ 60) :
    magnitudeAt q tens twos = some (q.magnitudeAt tens twos) := by
  have hcast : (q.twos : ℤ) - twos = (q.twos - twos : ℕ) := (Int.ofNat_sub htwos).symm
  unfold magnitudeAt
  simp (disch := omega) only [hcast, int?_eq, unsigned?_eq, Option.bind_eq_bind,
    Option.bind_some]
  rfl

theorem int?_answer (o : Ordering) : int? (answer o) = some (answer o) := by
  cases o <;> rfl

theorem int?_neg_answer (o : Ordering) : int? (-answer o) = some (answer o.swap) := by
  cases o <;> rfl

theorem int?_sign (q : Quantity) : int? q.sign = some q.sign := by
  unfold sign
  split
  · rfl
  · split <;> rfl

/-! ## Writing -/

/-- a third, rounded down -/
def floorThird (n : ℤ) : Option ℤ :=
  if 0 ≤ n then int? (n.tdiv 3)
  else do
    let opposite ← int? (-n)
    let raised ← int? (opposite + 2)
    let third ← int? (raised.tdiv 3)
    int? (-third)

def floorToThree (n : ℤ) : Option ℤ := do
  let third ← floorThird n
  int? (third * 3)

/-- exact divisions by ten, as many as the power is below zero, from the `i`-th one on -/
def divTens (tens : ℤ) : ℕ → ℤ → Magnitude → Option (Option Magnitude)
  | 0, _, _ => none
  | limit + 1, i, m => do
    let count ← int? (-tens)
    if i < count then
      if (m.divMod 10).2 = 0 then do
        let next ← int? (i + 1)
        divTens tens limit next (m.divMod 10).1
      else some none
    else some (some m)

def whole (q : Quantity) : Option (Option Magnitude) := do
  let twosFactor ← unsigned? q.twos
  let m := q.magnitude.mulPow2 twosFactor
  if 0 ≤ q.tens then do
    let tensFactor ← unsigned? q.tens
    some (some (m.mulPow10 tensFactor))
  else divTens q.tens ((-q.tens).toNat + 1) 0 m

/-- factors of ten moved to the power, each of them counted -/
def stripTens : ℕ → Magnitude → ℤ → Option (Magnitude × ℤ)
  | 0, m, tens => if !m.isZero && m.isMultipleOf 10 then none else some (m, tens)
  | limit + 1, m, tens =>
    if !m.isZero && m.isMultipleOf 10 then do
      let next ← int? (tens + 1)
      stripTens limit (m.divMod 10).1 next
    else some (m, tens)

def stripped (q : Quantity) : Option (Magnitude × ℤ) := do
  let twosFactor ← unsigned? q.twos
  let m := q.magnitude.mulPow2 twosFactor
  stripTens (9 * m.limbs.length) m q.tens

def scaledText (m : Magnitude) (tens scale : ℤ) : Option Text := do
  let above ← int? (tens - scale)
  let factor ← unsigned? above
  some (m.mulPow10 factor).toText

def exponentText (m : Magnitude) (tens : ℤ) : Option Text := do
  let scale ← floorToThree tens
  let number ← scaledText m tens scale
  some (number ++ exponentSuffix scale)

def suffixText (m : Magnitude) (tens : ℤ) : Option Text := do
  let below ← floorToThree tens
  let scale := max (-9) (min 18 below)
  if tens < scale then exponentText m tens
  else do
    let number ← scaledText m tens scale
    some (number ++ decimalSuffix scale)

def decimalText (q : Quantity) (exponentForm : Bool) : Option Text := do
  let (m, tens) ← stripped q
  if exponentForm then exponentText m tens else suffixText m tens

def unsignedText (q : Quantity) : Option Text :=
  match q.family with
  | .decimalExponent => decimalText q true
  | .decimalSI => decimalText q false
  | .binarySI => do
    match ← whole q with
    | some m => some (binaryText m)
    | none => decimalText q false

def toText (q : Quantity) : Option Text :=
  if q.isZero then some (decimal 0)
  else (unsignedText q).map fun t => (if q.negative then [byte '-'] else []) ++ t

theorem floorThird_eq {n : ℤ} (hlow : -2 ^ 31 + 3 ≤ n) (hhigh : n < 2 ^ 31) :
    floorThird n = some (n / 3) := by
  unfold floorThird
  split
  · rename_i hn
    rw [Int.tdiv_eq_ediv_of_nonneg hn]
    exact int?_eq (by omega) (by omega)
  · have hthird : (-n + 2).tdiv 3 = -(n / 3) := by
      rw [Int.tdiv_eq_ediv_of_nonneg (by omega)]
      omega
    simp (disch := omega) only [int?_eq, hthird, neg_neg, Option.bind_eq_bind, Option.bind_some]

theorem floorToThree_eq {n : ℤ} (hlow : -2 ^ 31 + 3 ≤ n) (hhigh : n < 2 ^ 31) :
    floorToThree n = some (Quantity.floorToThree n) := by
  have hmul : n / 3 * 3 = Quantity.floorToThree n := mul_comm _ _
  rw [floorToThree, floorThird_eq hlow hhigh, Option.bind_eq_bind, Option.bind_some, ← hmul]
  exact int?_eq (by omega) (by omega)

theorem divTens_eq {tens i : ℤ} {n : ℕ} (hi : 0 ≤ i) (hcount : -tens = i + n)
    (hroom : -tens < 2 ^ 31) (m : Magnitude) :
    divTens tens (n + 1) i m = some (divTens? n m) := by
  induction n generalizing i m with
  | zero =>
    have hfits : int? (-tens) = some (-tens) := int?_eq (by omega) (by omega)
    rw [divTens, hfits, Option.bind_eq_bind, Option.bind_some, if_neg (by omega), divTens?]
  | succ n ih =>
    have hfits : int? (-tens) = some (-tens) := int?_eq (by omega) (by omega)
    have hnext : int? (i + 1) = some (i + 1) := int?_eq (by omega) (by omega)
    have hstep : divTens? (n + 1) m =
      if (m.divMod 10).2 = 0 then divTens? n (m.divMod 10).1 else none := rfl
    rw [divTens, hfits, Option.bind_eq_bind, Option.bind_some, if_pos (by omega), hnext,
      Option.bind_some, ih (by omega) (by omega), hstep]
    split <;> rfl

theorem unsigned?_twos {q : Quantity} (h : q.twos ≤ 60) : unsigned? q.twos = some q.twos :=
  unsigned?_eq (Int.natCast_nonneg q.twos) (by omega)

theorem whole_eq {q : Quantity} (hlow : -2 ^ 31 < q.tens) (hhigh : q.tens < 2 ^ 31)
    (htwos : q.twos ≤ 60) : whole q = some q.whole? := by
  rw [whole, unsigned?_twos htwos, Option.bind_eq_bind, Option.bind_some]
  unfold whole?
  dsimp only
  split
  · rename_i hpos
    rw [unsigned?_eq hpos hhigh]
    rfl
  · rename_i hneg
    exact divTens_eq (le_refl 0) (by omega) (by omega) _

/-- every digit of the magnitude is at most one step of the power -/
theorem stripTens_eq {limit room : ℕ} {m : Magnitude} {tens : ℤ} (hc : m.Canonical)
    (hm : m.value ≠ 0) (hlimit : m.value < 10 ^ limit) (hvalue : m.value < 10 ^ room)
    (hlow : -2 ^ 31 ≤ tens) (hroom : tens + room < 2 ^ 31) :
    stripTens limit m tens = some (Quantity.stripTens limit m tens) := by
  induction limit generalizing m tens room with
  | zero =>
    rw [pow_zero, Nat.lt_one_iff] at hlimit
    exact absurd hlimit hm
  | succ limit ih =>
    rw [stripTens, Quantity.stripTens]
    split
    · rename_i hcond
      have hdvd := ((goesOn_iff hc (d := 10) (n := 10) (by decide) rfl).mp hcond).2
      obtain ⟨hc', hv⟩ := divMod_of_dvd hc (d := 10) (n := 10) (by decide) rfl hdvd
      -- the magnitude loses a digit as the power gains one, so their sum has the same room
      cases room with
      | zero =>
        rw [pow_zero, Nat.lt_one_iff] at hvalue
        exact absurd hvalue hm
      | succ room =>
        rw [pow_succ] at hlimit hvalue
        have hrest : (m.divMod 10).1.value < 10 ^ room := by omega
        have hnext : int? (tens + 1) = some (tens + 1) := int?_eq (by omega) (by omega)
        rw [hnext, Option.bind_eq_bind, Option.bind_some]
        exact ih hc' (by omega) (by omega) hrest (by omega) (by omega)
    · rfl

theorem bounds_stripTens {limit room : ℕ} {m : Magnitude} (tens : ℤ) (hc : m.Canonical)
    (hm : m.value ≠ 0) (hlimit : m.value < 10 ^ limit) (hvalue : m.value < 10 ^ room) :
    tens ≤ (Quantity.stripTens limit m tens).2 ∧
      (Quantity.stripTens limit m tens).2 < tens + room := by
  obtain ⟨-, -, k, hk, hmul⟩ := stripTens_spec tens hc hm hlimit
  have hle : 10 ^ k ≤ m.value := by
    rw [← hmul]
    refine Nat.le_mul_of_pos_left _ (Nat.pos_of_ne_zero fun hzero => hm ?_)
    rw [← hmul, hzero, Nat.zero_mul]
  have hlt : k < room := (Nat.pow_lt_pow_iff_right (by decide)).mp (Nat.lt_of_le_of_lt hle hvalue)
  omega

theorem scaledText_eq {m : Magnitude} {tens scale : ℤ} (hle : scale ≤ tens)
    (hroom : tens - scale < 2 ^ 31) :
    scaledText m tens scale = some (Quantity.scaledText m tens scale) := by
  have habove : int? (tens - scale) = some (tens - scale) := int?_eq (by omega) hroom
  rw [scaledText, habove, Option.bind_eq_bind, Option.bind_some, unsigned?_eq (by omega) hroom]
  rfl

section
variable {m : Magnitude} {tens : ℤ} (hlow : -2 ^ 31 + 3 ≤ tens) (hhigh : tens < 2 ^ 31 - 9)
include hlow hhigh

theorem exponentText_eq : exponentText m tens = some (Quantity.exponentText m tens) := by
  have hscale : Quantity.floorToThree tens = 3 * (tens / 3) := rfl
  rw [exponentText, floorToThree_eq hlow (by omega), Option.bind_eq_bind, Option.bind_some,
    scaledText_eq (by omega) (by omega)]
  rfl

/-- no power below the scale of its suffix is left when a suffix is written -/
theorem suffixText_eq : suffixText m tens = some (Quantity.suffixText m tens) := by
  have hscale : suffixScale tens = max (-9) (min 18 (Quantity.floorToThree tens)) := rfl
  rw [suffixText, floorToThree_eq hlow (by omega), Option.bind_eq_bind, Option.bind_some, ← hscale]
  dsimp only
  by_cases hlt : tens < suffixScale tens
  · rw [if_pos hlt, exponentText_eq hlow hhigh, Quantity.suffixText, if_pos hlt]
  · rw [if_neg hlt, scaledText_eq (by omega) (by omega), Quantity.suffixText, if_neg hlt]
    rfl

end

end VolumeClaim.Quantity.Checked
