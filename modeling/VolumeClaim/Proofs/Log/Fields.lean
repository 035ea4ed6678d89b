import VolumeClaim.Log
import VolumeClaim.Proofs.Text
import VolumeClaim.Proofs.Text.Numeral

/-!
# Log fields, read back

The fields after a message can be told apart again: a key ends at the first equals sign, a value in
quotes at the first quote that no backslash precedes, and a value without quotes at the first space,
which it does not hold itself.  `LogField.readList` reads so.

* `readQuoted_escaped`   a value in quotes is read back, whatever its bytes;
* `readField_toText`     a field is read back, and what follows it is left;
* `fields_unambiguous`   all fields are read back, so no two lists of fields have one text.
-/

namespace VolumeClaim.LogField
open Text

/-! ## Reading -/

/-- a value up to its closing quote, and what follows; a backslash stands for the byte after it.
The first argument says whether a backslash has just been read. -/
def readQuoted : Bool → Text → Option (Text × Text)
  | _, [] => none
  | true, b :: rest => (readQuoted false rest).map fun r => (b :: r.1, r.2)
  | false, b :: rest =>
    if b = byte '"' then some ([], rest)
    else if b = byte '\\' then readQuoted true rest
    else (readQuoted false rest).map fun r => (b :: r.1, r.2)

def isBare (b : UInt8) : Bool := b ≠ byte ' '

/-- a value in quotes or without, and what follows -/
def readValue (t : Text) : Option (Text × Text) :=
  match [byte '"'].isPrefixOf? t with
  | some rest => readQuoted false rest
  | none => some (t.takeWhile isBare, t.dropWhile isBare)

def isKeyByte (b : UInt8) : Bool := b ≠ byte '='

def readField (t : Text) : Option (LogField × Text) := do
  let rest ← [byte '='].isPrefixOf? (t.dropWhile isKeyByte)
  let (value, rest) ← readValue rest
  return (⟨t.takeWhile isKeyByte, value⟩, rest)

/-- at least one field; every field has at least one byte, so the length of the text bounds their
number -/
def readFields : Nat → Text → Option (List LogField)
  | 0, _ => none
  | n + 1, t => do
    let (f, rest) ← readField t
    if rest = [] then return [f]
    else do
      let more ← [byte ' '].isPrefixOf? rest
      let fields ← readFields n more
      return f :: fields

/-- the fields that a text was made of -/
def readList (t : Text) : Option (List LogField) :=
  if t = [] then some [] else readFields t.length t

/-! ## One value -/

theorem readQuoted_escapeByte (b : UInt8) (t : Text) :
    readQuoted false (escapeByte b ++ t) =
      (readQuoted false t).map fun r => (b :: r.1, r.2) := by
  unfold escapeByte
  by_cases h : b = byte '"' ∨ b = byte '\\'
  · rw [if_pos h]
    rfl
  · rw [if_neg h, List.singleton_append, readQuoted, if_neg fun hb => h (.inl hb),
      if_neg fun hb => h (.inr hb)]

theorem readQuoted_escaped (t rest : Text) :
    readQuoted false (t.flatMap escapeByte ++ byte '"' :: rest) = some (t, rest) := by
  induction t with
  | nil => rfl
  | cons b t ih =>
    rw [List.flatMap_cons, List.append_assoc, readQuoted_escapeByte, ih]
    rfl

/-- what may follow a field: nothing, or a space -/
def Ends (rest : Text) : Prop := ∀ b ∈ rest.head?, b = byte ' '

theorem ends_nil : Ends [] := by simp [Ends]

theorem ends_space (rest : Text) : Ends (byte ' ' :: rest) := by simp [Ends]

theorem Ends.stops {rest : Text} (h : Ends rest) : Stops isBare rest := by
  intro b hb
  rw [h b hb]
  rfl

theorem not_isSpecial_of_not_needsQuotes {t : Text} (h : needsQuotes t = false) :
    t ≠ [] ∧ ∀ b ∈ t, isSpecial b = false := by
  unfold needsQuotes at h
  rw [Bool.or_eq_false_iff, List.any_eq_false] at h
  refine ⟨fun hnil => ?_, fun b hb => Bool.eq_false_iff.mpr (h.2 b hb)⟩
  rw [hnil] at h
  cases h.1

theorem ne_of_not_isSpecial {b : UInt8} (h : isSpecial b = false) :
    b ≠ byte ' ' ∧ b ≠ byte '"' := by
  constructor <;> (rintro rfl; cases h)

theorem readValue_valueText (t : Text) {rest : Text} (h : Ends rest) :
    readValue (valueText t ++ rest) = some (t, rest) := by
  unfold valueText
  cases hquotes : needsQuotes t with
  | true =>
    have hread : [byte '"'].isPrefixOf? (byte '"' :: (t.flatMap escapeByte ++ byte '"' :: rest)) =
        some (t.flatMap escapeByte ++ byte '"' :: rest) := isPrefixOf?_append [byte '"'] _
    rw [if_pos rfl, List.cons_append, List.append_assoc, List.singleton_append, readValue, hread]
    exact readQuoted_escaped t rest
  | false =>
    rw [if_neg Bool.false_ne_true]
    obtain ⟨hne, hplain⟩ := not_isSpecial_of_not_needsQuotes hquotes
    have hbare : t.all isBare = true := by
      rw [List.all_eq_true]
      intro b hb
      exact decide_eq_true (ne_of_not_isSpecial (hplain b hb)).1
    -- a value without quotes has a first byte, and this is no quote
    have hquote : [byte '"'].isPrefixOf? (t ++ rest) = none := by
      cases t with
      | nil => exact absurd rfl hne
      | cons b t =>
        have hb := (ne_of_not_isSpecial (hplain b List.mem_cons_self)).2
        rw [List.cons_append, List.isPrefixOf?, beq_false_of_ne hb.symm]
        rfl
    rw [readValue, hquote]
    show some (_, _) = _
    rw [takeWhile_append hbare h.stops, dropWhile_append hbare h.stops]

/-! ## Fields -/

theorem readField_toText {f : LogField} (hkey : byte '=' ∉ f.key) {rest : Text} (h : Ends rest) :
    readField (f.toText ++ rest) = some (f, rest) := by
  have hbytes : f.key.all isKeyByte = true := by
    rw [List.all_eq_true]
    intro b hb
    exact decide_eq_true fun heq => hkey (heq ▸ hb)
  have hstops : Stops isKeyByte (byte '=' :: (valueText f.value ++ rest)) := stops_cons rfl _
  have hafter : [byte '='].isPrefixOf? (byte '=' :: (valueText f.value ++ rest)) =
      some (valueText f.value ++ rest) := isPrefixOf?_append [byte '='] _
  rw [toText, List.append_assoc, List.cons_append, readField, dropWhile_append hbytes hstops,
    takeWhile_append hbytes hstops, hafter, Option.bind_eq_bind, Option.bind_some,
    readValue_valueText f.value h]
  rfl

theorem listText_cons_cons (f g : LogField) (fields : List LogField) :
    listText (f :: g :: fields) = f.toText ++ byte ' ' :: listText (g :: fields) := rfl

theorem toText_ne_nil (f : LogField) : f.toText ≠ [] := by
  unfold toText
  exact List.append_ne_nil_of_right_ne_nil f.key (List.cons_ne_nil _ _)

theorem listText_cons_ne_nil (f : LogField) (fields : List LogField) :
    listText (f :: fields) ≠ [] := by
  cases fields with
  | nil => exact toText_ne_nil f
  | cons g fields => exact List.append_ne_nil_of_left_ne_nil (toText_ne_nil f) _

theorem length_le_listText (fields : List LogField) :
    fields.length ≤ (listText fields).length := by
  induction fields with
  | nil => exact Nat.le_refl 0
  | cons f fields ih =>
    cases fields with
    | nil => exact List.length_pos_iff.mpr (toText_ne_nil f)
    | cons g fields =>
      have hrest : (g :: fields).length + 1 ≤ (byte ' ' :: listText (g :: fields)).length :=
        Nat.succ_le_succ ih
      rw [listText_cons_cons, List.length_append]
      exact Nat.le_trans hrest (Nat.le_add_left _ _)

theorem readFields_listText {n : Nat} (f : LogField) (fields : List LogField)
    (hn : fields.length < n) (h : ∀ g ∈ f :: fields, byte '=' ∉ g.key) :
    readFields n (listText (f :: fields)) = some (f :: fields) := by
  induction fields generalizing f n with
  | nil =>
    obtain ⟨n, rfl⟩ := Nat.exists_eq_add_one_of_ne_zero (Nat.ne_of_gt hn)
    have hfield := readField_toText (h f List.mem_cons_self) ends_nil
    rw [List.append_nil] at hfield
    rw [listText, readFields, hfield]
    rfl
  | cons g fields ih =>
    obtain ⟨n, rfl⟩ := Nat.exists_eq_add_one_of_ne_zero (Nat.ne_of_gt (Nat.zero_lt_of_lt hn))
    have hmore : [byte ' '].isPrefixOf? (byte ' ' :: listText (g :: fields)) =
        some (listText (g :: fields)) := isPrefixOf?_append [byte ' '] _
    have hrest : readFields n (listText (g :: fields)) = some (g :: fields) :=
      ih g (Nat.lt_of_succ_lt_succ hn) fun k hk => h k (List.mem_cons_of_mem f hk)
    rw [listText_cons_cons, readFields, readField_toText (h f List.mem_cons_self) (ends_space _),
      Option.bind_eq_bind, Option.bind_some]
    show (if byte ' ' :: listText (g :: fields) = [] then _ else _) = _
    rw [if_neg (List.cons_ne_nil _ _), hmore, Option.bind_eq_bind, Option.bind_some, hrest]
    rfl

theorem readList_listText {fields : List LogField} (h : ∀ f ∈ fields, byte '=' ∉ f.key) :
    readList (listText fields) = some fields := by
  cases fields with
  | nil => rfl
  | cons f fields =>
    rw [readList, if_neg (listText_cons_ne_nil f fields)]
    exact readFields_listText f fields (length_le_listText (f :: fields)) h

/-- **Fields can be told apart** as long as no key holds an equals sign: every key and every value
is read back from the text, whatever the values are.  So two lists of fields with one text are one,
and no value can pass for another field. -/
theorem fields_unambiguous {fields : List LogField} (h : ∀ f ∈ fields, byte '=' ∉ f.key) :
    readList (listText fields) = some fields ∧
      ∀ others : List LogField, (∀ f ∈ others, byte '=' ∉ f.key) →
        listText fields = listText others → fields = others := by
  have hread := readList_listText h
  refine ⟨hread, fun others hothers htext => ?_⟩
  rw [htext, readList_listText hothers] at hread
  exact (Option.some.inj hread).symm

/-- a value that tries to be a field of its own, one without quotes that ends in a backslash, and an
empty key with an empty value -/
def trickyFields : List LogField :=
  [⟨ascii "name", ascii "a b=\"c\\\""⟩, ⟨ascii "a key", ascii "C:\\"⟩, ⟨[], []⟩]

theorem fields_unambiguous_tricky :
    (∀ f ∈ trickyFields, byte '=' ∉ f.key) ∧
      listText trickyFields = ascii "name=\"a b=\\\"c\\\\\\\"\" a key=C:\\ =\"\"" ∧
      readList (listText trickyFields) = some trickyFields ∧
      listText trickyFields ≠ listText [⟨ascii "name", ascii "a"⟩, ⟨ascii "b", ascii "c"⟩] := by
  have hkeys : ∀ f ∈ trickyFields, byte '=' ∉ f.key := by decide
  refine ⟨hkeys, by decide, (fields_unambiguous hkeys).1, fun htext => ?_⟩
  have heq := (fields_unambiguous hkeys).2 _ (by decide) htext
  exact absurd heq (by decide)

end VolumeClaim.LogField
