import VolumeClaim.Claim.RoundTrip
import VolumeClaim.Node.Typing
import VolumeClaim.Node.Writing
import VolumeClaim.Proofs.Number.Literal
import VolumeClaim.Proofs.Value.Texts

/-!
# Written nodes are read back

The writer of nodes quotes the texts that it takes for numbers: decimal notation with an optional
sign, and the words of YAML for infinity and for no number.  The reader takes more texts for
numbers.  What lies between them is `Misread`.

* `isSome_number?_iff` what the reader takes for a number;
* `readsAsNumber_iff`  what the writer takes for a number;
* `reread_of_misread`, `reread_of_not_misread` a misread text comes back as a number and every
  other one as itself;
* `Value.value_yaml`   so a tree comes back with these texts replaced.
-/

namespace VolumeClaim

namespace Node
open Text Grammar

/-! ## What is taken for a number -/

/-- the part in front of the first zero byte, if there is one, is nothing or a number -/
def OpensNumber (t : Text) : Prop :=
  t ≠ [] ∧ (untilZero t = [] ∨ Binary64.IsLiteral (untilZero t))

def IsSignedDecimal (t : Text) : Prop :=
  ∃ (sign : Sign) (unsigned : Text), IsDecimal unsigned ∧ t = sign.text ++ unsigned

theorem isSome_number?_iff (t : Text) : (number? t).isSome = true ↔ OpensNumber t := by
  unfold number? OpensNumber
  split
  · rename_i hnil
    simp [hnil]
  · rename_i hne
    split
    · rename_i hzero
      simp [hne, hzero]
    · rename_i hzero
      rw [Binary64.isSome_ofLiteral?_iff]
      simp [hne, hzero]

theorem readsAsNumber_iff (t : Text) : readsAsNumber t = true ↔
    IsSignedDecimal t ∨ (∃ sign : Sign, ∃ word ∈ infinityWords, t = sign.text ++ word) ∨
      t ∈ nanWords := by
  have hparts : readsAsNumber t = true ↔
      IsDecimal (readSign t).2 ∨ (readSign t).2 ∈ infinityWords ∨ t ∈ nanWords := by
    unfold readsAsNumber
    rw [Bool.or_eq_true, Bool.or_eq_true, Scientific.isSome_ofText?_iff, List.contains_iff_mem,
      List.contains_iff_mem, or_assoc]
  rw [hparts]
  constructor
  · cases hr : readSign t with
    | mk negative unsigned =>
      obtain ⟨sign, ht, -⟩ := sign_of_readSign hr
      rintro (h | h | h)
      · exact .inl ⟨sign, unsigned, h, ht⟩
      · exact .inr (.inl ⟨sign, unsigned, h, ht⟩)
      · exact .inr (.inr h)
  · rintro (⟨sign, unsigned, h, rfl⟩ | ⟨sign, word, h, rfl⟩ | h)
    · rw [readSign_text sign fun b hb => (Binary64.bare_of_isDecimal h b hb).2]
      exact .inl h
    · have hpoint : ∀ word ∈ infinityWords, word.head? = some (byte '.') := by decide
      have hbare := Binary64.bare_of_head (hpoint word h) (by decide)
      rw [readSign_text sign fun b hb => (hbare b hb).2]
      exact .inr (.inl h)
    · exact .inr (.inr h)

/-! ## Texts that need quotes for another reason -/

theorem number?_of_null {t : Text} (h : lower t = ascii "null") : number? t = none := by
  have hbare : Binary64.Bare t := by
    refine Binary64.bare_of_lower ?_
    rw [h]
    exact Binary64.bare_of_head rfl (by decide)
  have hzero : 0 ∉ t := fun hz => by
    have hlower : lowerByte 0 ∈ lower t := List.mem_map_of_mem hz
    rw [h] at hlower
    exact absurd hlower (by decide)
  have hunsigned : ¬ Binary64.IsUnsigned t := by
    rintro (h' | h' | ⟨-, h'⟩ | ⟨h', -⟩ | h')
    · rw [h] at h'
      exact absurd h' (by decide)
    · rw [h] at h'
      exact absurd h' (by decide)
    · rw [h] at h'
      have hsecond : byte 'u' = byte 'a' := (List.cons.inj (List.cons.inj h').2).1
      exact absurd hsecond (by decide)
    · rw [h] at h'
      have hfirst : byte 'n' = byte '0' := (List.cons.inj h').1
      exact absurd hfirst (by decide)
    · refine Binary64.not_isDecimal_of_mem (c := byte 'n') ?_ (by decide) (by decide) h'
      rw [h]
      decide
  unfold number?
  split
  · rfl
  · rename_i hne
    rw [untilZero_eq_self hzero, if_neg hne, Binary64.ofLiteral?_of_bare hbare,
      ← Option.not_isSome_iff_eq_none, Binary64.isSome_unsignedLiteral?_iff]
    exact hunsigned

theorem number?_of_readsAsNull {t : Text} (h : readsAsNull t = true) : number? t = none := by
  rw [readsAsNull, Bool.or_eq_true, Bool.or_eq_true, List.isEmpty_iff, decide_eq_true_eq,
    decide_eq_true_eq] at h
  rcases h with (rfl | rfl) | h
  · rfl
  · decide
  · exact number?_of_null h

theorem number?_of_readsAsTruth {t : Text} (h : readsAsTruth t = true) : number? t = none := by
  have hwords : ∀ word ∈ truthWords, number? word = none ∧
      number? (word.map upperByte) = none ∧ number? (capitalized word) = none := by decide
  obtain ⟨word, hword, h⟩ := List.any_eq_true.mp h
  rw [Bool.or_eq_true, Bool.or_eq_true, decide_eq_true_eq, decide_eq_true_eq,
    decide_eq_true_eq] at h
  obtain ⟨hlower, hupper, hcapital⟩ := hwords word hword
  rcases h with (rfl | rfl) | rfl
  · exact hlower
  · exact hupper
  · exact hcapital

theorem number?_of_infinity (sign : Sign) {word : Text} (h : word ∈ infinityWords) :
    number? (sign.text ++ word) = none := by
  have hwords : ∀ word ∈ infinityWords, number? word = none ∧
      number? (byte '+' :: word) = none ∧ number? (byte '-' :: word) = none := by decide
  obtain ⟨habsent, hplus, hminus⟩ := hwords word h
  cases sign with
  | absent => exact habsent
  | plus => exact hplus
  | minus => exact hminus

theorem number?_of_nan {t : Text} (h : t ∈ nanWords) : number? t = none := by
  have hwords : ∀ word ∈ nanWords, number? word = none := by decide
  exact hwords t h

/-! ## Texts written without quotes -/

/-- numbers for the reader, written without quotes -/
def Misread (t : Text) : Prop := OpensNumber t ∧ ¬ IsSignedDecimal t

theorem needsQuotes_of_misread {t : Text} (h : Misread t) : needsQuotes t = false := by
  have hnumber : number? t ≠ none := by
    rw [← Option.isSome_iff_ne_none, isSome_number?_iff]
    exact h.1
  by_contra hquotes
  rw [Bool.not_eq_false, needsQuotes, Bool.or_eq_true, Bool.or_eq_true, readsAsNumber_iff]
    at hquotes
  rcases hquotes with (hnull | htruth) | hdecimal | ⟨sign, word, hword, rfl⟩ | hnan
  · exact hnumber (number?_of_readsAsNull hnull)
  · exact hnumber (number?_of_readsAsTruth htruth)
  · exact h.2 hdecimal
  · exact hnumber (number?_of_infinity sign hword)
  · exact hnumber (number?_of_nan hnan)

theorem plainValue_of_needsQuotes {t : Text} (h : needsQuotes t = false) :
    plainValue t = (number? t).elim (.text t) .number := by
  have hword : ∀ word, needsQuotes word = true → t ≠ word := by
    rintro word hword rfl
    rw [h] at hword
    cases hword
  unfold plainValue
  rw [if_neg (not_or.mpr ⟨hword _ rfl, hword _ rfl⟩), if_neg (hword _ rfl), if_neg (hword _ rfl)]
  cases number? t <;> rfl

/-- what the scalar of a text is read as -/
def reread (t : Text) : Value := if needsQuotes t then .text t else plainValue t

theorem value_ofText (t : Text) : (ofText t).value = .ok (reread t) := by
  have hplain : ¬ plainTag = quotedTag := by decide
  unfold ofText reread
  split
  · show Except.ok (scalarValue quotedTag t) = _
    rw [scalarValue, if_pos rfl]
  · show Except.ok (scalarValue plainTag t) = _
    rw [scalarValue, if_neg hplain]

theorem reread_of_misread {t : Text} (h : Misread t) : ∃ x, reread t = .number x := by
  have hquotes := needsQuotes_of_misread h
  obtain ⟨x, hx⟩ := Option.isSome_iff_exists.mp ((isSome_number?_iff t).mpr h.1)
  refine ⟨x, ?_⟩
  rw [reread, hquotes, plainValue_of_needsQuotes hquotes, hx]
  rfl

theorem reread_of_not_misread {t : Text} (h : ¬ Misread t) : reread t = .text t := by
  unfold reread
  split
  · rfl
  · rename_i hquotes
    rw [Bool.not_eq_true] at hquotes
    rw [plainValue_of_needsQuotes hquotes]
    cases hx : number? t with
    | none => rfl
    | some x =>
      have hopens : OpensNumber t := (isSome_number?_iff t).mp (by rw [hx]; rfl)
      have hdecimal : readsAsNumber t = true := (readsAsNumber_iff t).mpr (.inl (by
        by_contra hdecimal
        exact h ⟨hopens, hdecimal⟩))
      rw [needsQuotes, hdecimal, Bool.or_true] at hquotes
      cases hquotes

theorem reread_eq_text_iff (t : Text) : reread t = .text t ↔ ¬ Misread t := by
  refine ⟨fun htext h => ?_, reread_of_not_misread⟩
  obtain ⟨x, hx⟩ := reread_of_misread h
  rw [hx] at htext
  cases htext

end Node

/-! ## Trees -/

namespace Value
open Node

theorem map_fst_yamlFields (fields : List (Text × Value)) :
    (yamlFields fields).map Prod.fst = fields.map Prod.fst := by
  induction fields with
  | nil => rfl
  | cons field fields ih => rw [yamlFields, List.map_cons, List.map_cons, ih]

theorem ascending_yamlFields_iff (fields : List (Text × Value)) :
    Keyed.Ascending (yamlFields fields) ↔ Keyed.Ascending fields := by
  rw [Keyed.ascending_iff, Keyed.ascending_iff, map_fst_yamlFields]

mutual

theorem value_yaml (v : Value) (hn : v.noNumbers = true) (ho : v.Ordered) :
    v.yaml.value = .ok (v.mapTexts reread) := by
  match v with
  | .null => rfl
  | .bool b => cases b <;> rfl
  | .number x => cases hn
  | .text t => exact value_ofText t
  | .list items =>
    show (itemValues (yamlItems items)).map _ = _
    rw [itemValues_yamlItems items hn ho]
    rfl
  | .object fields =>
    show (entryValues [] ((Keyed.ofList (yamlFields fields)).map entry)).map _ = _
    rw [Keyed.ofList_of_ascending ((ascending_yamlFields_iff fields).mpr ho.1),
      entryValues_yamlFields fields hn ho.2 [] ((ascending_mapFieldTexts_iff fields).mpr ho.1)]
    rfl

theorem itemValues_yamlItems (items : List Value) (hn : noNumbersItems items = true)
    (ho : OrderedItems items) : itemValues (yamlItems items) = .ok (mapItemTexts reread items) := by
  match items with
  | [] => rfl
  | v :: items =>
    rw [noNumbersItems, Bool.and_eq_true] at hn
    rw [yamlItems, itemValues, value_yaml v hn.1 ho.1, itemValues_yamlItems items hn.2 ho.2]
    rfl

/-- the entries come in ascending order, so each one is put behind those that came before it -/
theorem entryValues_yamlFields (fields : List (Text × Value)) (hn : noNumbersFields fields = true)
    (ho : OrderedFields fields) (before : List (Text × Value))
    (h : Keyed.Ascending (before ++ mapFieldTexts reread fields)) :
    entryValues before ((yamlFields fields).map entry) =
      .ok (before ++ mapFieldTexts reread fields) := by
  match fields with
  | [] =>
    rw [mapFieldTexts, List.append_nil]
    rfl
  | (key, v) :: fields =>
    rw [noNumbersFields, Bool.and_eq_true] at hn
    rw [mapFieldTexts] at h ⊢
    have hlast : ∀ e ∈ before, e.1 < key := fun e he =>
      (List.pairwise_append.mp h).2.2 e he _ List.mem_cons_self
    rw [List.append_cons] at h ⊢
    rw [yamlFields, List.map_cons, entry, plain, entryValues, value_yaml v hn.1 ho.1]
    show entryValues (Keyed.insert key (v.mapTexts reread) before)
      ((yamlFields fields).map entry) = _
    rw [Keyed.insert_of_forall_lt hlast]
    exact entryValues_yamlFields fields hn.2 ho.2 _ h

end

end Value
end VolumeClaim
