import VolumeClaim.Value.Json

/-!
# Values are read back from their JSON text

* `readQuoted_quoted` a quoted text is read back, whatever its bytes;
* `readValue_json`    a value is read back, whatever follows it, given two steps for each byte;
* `ofJson?_json`      hence the JSON of a value is the JSON of no other value.

Values with numbers are left out: a number that is not finite is written as null.
-/

namespace VolumeClaim.Value
open Text

/-! ## Quoted texts -/

theorem hexDigitValue?_hexDigit {d : Nat} (h : d < 16) : hexDigitValue? (hexDigit d) = some d := by
  have : ∀ d < 16, hexDigitValue? (hexDigit d) = some d := by decide
  exact this d h

/-- a byte is read back from its escaped form -/
theorem readByte_escapeByte (b : UInt8) (rest : Text) :
    readByte (escapeByte b ++ rest) = some (b, rest) := by
  rw [escapeByte]
  split
  · rename_i h
    subst h
    rfl
  split
  · rename_i h
    subst h
    rfl
  split
  · rename_i h
    have hb : b.toNat < 32 := by simpa [UInt8.lt_iff_toNat_lt] using h
    have hv : (16 * (b.toNat / 16) + b.toNat % 16).toUInt8 = b := by
      rw [Nat.div_add_mod]; simp
    have e : ascii "\\u00" = [byte '\\', byte 'u', byte '0', byte '0'] := rfl
    simp only [e, List.cons_append, List.nil_append, readByte, readEscape, readControl]
    rw [if_pos trivial, if_neg (by decide), if_pos trivial, if_pos ⟨trivial, trivial⟩,
      hexDigitValue?_hexDigit (by omega), hexDigitValue?_hexDigit (by omega)]
    simp only [hv]
  · rename_i h1 h2 h3
    simp [readByte, h2]

/-- no escaped byte looks like the closing quote -/
theorem expect_quote_escapeByte (b : UInt8) (rest : Text) :
    expect (byte '"') (escapeByte b ++ rest) = none := by
  rw [escapeByte]
  split
  · rfl
  split
  · rfl
  split
  · rfl
  · rename_i h1 h2 h3
    simp [expect, h1]

/-- a text is read back up to its closing quote -/
theorem readQuoted_quoted (t rest : Text) (n : Nat) (h : (t.flatMap escapeByte).length < n) :
    readQuoted n (t.flatMap escapeByte ++ byte '"' :: rest) = some (t, rest) := by
  induction t generalizing n with
  | nil =>
    obtain ⟨n, rfl⟩ : ∃ m, n = m + 1 := ⟨n - 1, by omega⟩
    simp [readQuoted, expect]
  | cons b t ih =>
    obtain ⟨n, rfl⟩ : ∃ m, n = m + 1 := ⟨n - 1, by omega⟩
    have hb : 1 ≤ (escapeByte b).length := by
      unfold escapeByte; split <;> (try split) <;> (try split) <;> simp
    rw [List.flatMap_cons, List.length_append] at h
    rw [List.flatMap_cons, List.append_assoc, readQuoted, expect_quote_escapeByte,
      readByte_escapeByte]
    simp [ih n (by omega)]

/-! ## Values without numbers -/

mutual

def noNumbers : Value → Bool
  | .number _ => false
  | .list items => noNumbersItems items
  | .object fields => noNumbersFields fields
  | _ => true

def noNumbersItems : List Value → Bool
  | [] => true
  | v :: items => v.noNumbers && noNumbersItems items

def noNumbersFields : List (Text × Value) → Bool
  | [] => true
  | (_, v) :: fields => v.noNumbers && noNumbersFields fields

end

/-- no value starts with a closing bracket -/
theorem expect_bracket_json (v : Value) (h : v.noNumbers = true) (rest : Text) :
    1 ≤ v.json.length ∧ expect (byte ']') (v.json ++ rest) = none := by
  cases v with
  | bool b => cases b <;> exact ⟨by decide, rfl⟩
  | number x => simp [noNumbers] at h
  | null => exact ⟨by decide, rfl⟩
  | text t => exact ⟨by simp [json, quoted], rfl⟩
  | list items => exact ⟨by simp [json], rfl⟩
  | object fields => exact ⟨by simp [json], rfl⟩

mutual

/-- a value is read back from its JSON, with any text behind it -/
theorem readValue_json (v : Value) (h : v.noNumbers = true) (n : Nat) (rest : Text)
    (hn : 2 * v.json.length ≤ n) : readValue n (v.json ++ rest) = some (v, rest) := by
  match v with
  | .null =>
    obtain ⟨n, rfl⟩ : ∃ m, n = m + 1 := ⟨n - 1, by simp [json, ascii] at hn; omega⟩
    rfl
  | .bool b =>
    obtain ⟨n, rfl⟩ : ∃ m, n = m + 1 := ⟨n - 1, by cases b <;> simp [json, ascii] at hn <;> omega⟩
    cases b <;> rfl
  | .number x => simp [noNumbers] at h
  | .text t =>
    obtain ⟨n, rfl⟩ : ∃ m, n = m + 1 := ⟨n - 1, by simp [json, quoted] at hn; omega⟩
    simp only [json, quoted, List.cons_append, List.append_assoc, readValue, List.nil_append]
    rw [if_pos trivial, readQuoted_quoted _ _ _ (by simp)]
    rfl
  | .list items =>
    simp only [json, List.length_cons] at hn
    obtain ⟨n, rfl⟩ : ∃ m, n = m + 1 := ⟨n - 1, by omega⟩
    simp only [json, List.cons_append, readValue]
    rw [if_neg (by decide), if_pos trivial,
      readItems_json items (by simpa [noNumbers] using h) n rest (by omega)]
    rfl
  | .object fields =>
    simp only [json, List.length_cons] at hn
    obtain ⟨n, rfl⟩ : ∃ m, n = m + 1 := ⟨n - 1, by omega⟩
    simp only [json, List.cons_append, readValue]
    rw [if_neg (by decide), if_neg (by decide), if_pos trivial,
      readFieldList_json fields (by simpa [noNumbers] using h) n rest (by omega)]
    rfl

theorem readItems_json (items : List Value) (h : noNumbersItems items = true) (n : Nat)
    (rest : Text) (hn : 2 * (itemsJson items).length ≤ n) :
    readItems n (itemsJson items ++ rest) = some (items, rest) := by
  match items with
  | [] =>
    obtain ⟨n, rfl⟩ : ∃ m, n = m + 1 := ⟨n - 1, by simp [itemsJson] at hn; omega⟩
    rfl
  | v :: items =>
    simp only [noNumbersItems, Bool.and_eq_true] at h
    simp only [itemsJson, List.length_append] at hn
    obtain ⟨hl, he⟩ := expect_bracket_json v h.1 (moreItemsJson items ++ rest)
    obtain ⟨n, rfl⟩ : ∃ m, n = m + 1 := ⟨n - 1, by omega⟩
    have hm : 1 ≤ (moreItemsJson items).length := by cases items <;> simp [moreItemsJson]
    simp only [itemsJson, List.append_assoc, readItems, he]
    simp only [readValue_json v h.1 n _ (by omega), bind, Option.bind,
      readMoreItems_json items h.2 n rest (by omega)]
    rfl

theorem readMoreItems_json (items : List Value) (h : noNumbersItems items = true) (n : Nat)
    (rest : Text) (hn : 2 * (moreItemsJson items).length ≤ n) :
    readMoreItems n (moreItemsJson items ++ rest) = some (items, rest) := by
  match items with
  | [] =>
    obtain ⟨n, rfl⟩ : ∃ m, n = m + 1 := ⟨n - 1, by simp [moreItemsJson] at hn; omega⟩
    rfl
  | v :: items =>
    simp only [noNumbersItems, Bool.and_eq_true] at h
    simp only [moreItemsJson, List.length_append, List.length_cons] at hn
    obtain ⟨n, rfl⟩ : ∃ m, n = m + 1 := ⟨n - 1, by omega⟩
    simp only [moreItemsJson, List.append_assoc, List.cons_append, readMoreItems, expect]
    rw [if_neg (by decide)]
    simp only [if_true, readValue_json v h.1 n _ (by omega), bind, Option.bind,
      readMoreItems_json items h.2 n rest (by omega)]
    rfl

theorem readFieldList_json (fields : List (Text × Value)) (h : noNumbersFields fields = true)
    (n : Nat) (rest : Text) (hn : 2 * (fieldsJson fields).length ≤ n) :
    readFieldList n (fieldsJson fields ++ rest) = some (fields, rest) := by
  match fields with
  | [] =>
    obtain ⟨n, rfl⟩ : ∃ m, n = m + 1 := ⟨n - 1, by simp [fieldsJson] at hn; omega⟩
    rfl
  | (key, v) :: fields =>
    simp only [noNumbersFields, Bool.and_eq_true] at h
    simp only [fieldsJson, quoted, List.length_append, List.length_cons] at hn
    obtain ⟨n, rfl⟩ : ∃ m, n = m + 1 := ⟨n - 1, by omega⟩
    simp only [fieldsJson, quoted, List.append_assoc, List.cons_append, readFieldList, expect]
    rw [if_neg (by decide)]
    simp only [if_true, bind, Option.bind, List.nil_append]
    rw [readQuoted_quoted _ _ _ (by simp)]
    simp only [if_true, readValue_json v h.1 n _ (by omega),
      readMoreFields_json fields h.2 n rest (by omega)]
    rfl

theorem readMoreFields_json (fields : List (Text × Value)) (h : noNumbersFields fields = true)
    (n : Nat) (rest : Text) (hn : 2 * (moreFieldsJson fields).length ≤ n) :
    readMoreFields n (moreFieldsJson fields ++ rest) = some (fields, rest) := by
  match fields with
  | [] =>
    obtain ⟨n, rfl⟩ : ∃ m, n = m + 1 := ⟨n - 1, by simp [moreFieldsJson] at hn; omega⟩
    rfl
  | (key, v) :: fields =>
    simp only [noNumbersFields, Bool.and_eq_true] at h
    simp only [moreFieldsJson, quoted, List.length_append, List.length_cons] at hn
    obtain ⟨n, rfl⟩ : ∃ m, n = m + 1 := ⟨n - 1, by omega⟩
    simp only [moreFieldsJson, quoted, List.append_assoc, List.cons_append, readMoreFields, expect]
    rw [if_neg (by decide)]
    simp only [if_true, bind, Option.bind, List.nil_append]
    rw [readQuoted_quoted _ _ _ (by simp)]
    simp only [if_true, readValue_json v h.1 n _ (by omega),
      readMoreFields_json fields h.2 n rest (by omega)]
    rfl

end

/-- a value without numbers is read back from its JSON -/
theorem ofJson?_json (v : Value) (h : v.noNumbers = true) : ofJson? v.json = some v := by
  have := readValue_json v h (2 * v.json.length + 2) [] (by omega)
  rw [List.append_nil] at this
  rw [ofJson?, this]

end VolumeClaim.Value
