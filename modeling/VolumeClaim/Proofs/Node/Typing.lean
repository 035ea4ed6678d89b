import VolumeClaim.Proofs.Node.ReadBack

/-!
# The kinds of plain scalars

What is read from a plain scalar: null and the truth values have one word each, with a second one
for null, numbers are what `OpensNumber` describes, and everything else is a text, which is kept as
it is.

* `Node.plainValue_of_opensNumber`, `Node.plainValue_of_not_opensNumber` numbers and texts;
* `Node.plainValue_eq_text_iff` when a scalar is read as a text;
* `Node.plainValue_eq_null_iff`, `Node.plainValue_eq_bool_iff` the words.
-/

namespace VolumeClaim

/-- the kinds of values -/
inductive Value.Kind where
  | null
  | truth
  | number
  | text
  | list
  | object
  deriving DecidableEq

def Value.kind : Value → Value.Kind
  | .null => .null
  | .bool _ => .truth
  | .number _ => .number
  | .text _ => .text
  | .list _ => .list
  | .object _ => .object

namespace Node

/-- the words that the reader knows -/
def readerWords : List Text := ["~", "null", "true", "false"].map ascii

theorem plainValue_of_notMem {t : Text} (h : t ∉ readerWords) :
    plainValue t = (number? t).elim (.text t) .number := by
  have hword : ∀ word ∈ readerWords, t ≠ word := by
    intro word hword heq
    exact h (heq ▸ hword)
  unfold plainValue
  rw [if_neg (not_or.mpr ⟨hword _ (by decide), hword _ (by decide)⟩), if_neg (hword _ (by decide)),
    if_neg (hword _ (by decide))]
  cases number? t <;> rfl

theorem not_opensNumber_of_number? {t : Text} (h : number? t = none) : ¬ OpensNumber t := by
  rw [← isSome_number?_iff, h]
  exact Bool.false_ne_true

theorem not_opensNumber_of_mem {t : Text} (h : t ∈ readerWords) : ¬ OpensNumber t := by
  have hwords : ∀ word ∈ readerWords, number? word = none := by decide
  exact not_opensNumber_of_number? (hwords t h)

theorem plainValue_of_opensNumber {t : Text} (h : OpensNumber t) :
    ∃ x, plainValue t = .number x := by
  obtain ⟨x, hx⟩ := Option.isSome_iff_exists.mp ((isSome_number?_iff t).mpr h)
  rw [plainValue_of_notMem fun hmem => not_opensNumber_of_mem hmem h, hx]
  exact ⟨x, rfl⟩

theorem plainValue_of_not_opensNumber {t : Text} (hword : t ∉ readerWords)
    (h : ¬ OpensNumber t) : plainValue t = .text t := by
  rw [← isSome_number?_iff, Bool.not_eq_true, Option.isSome_eq_false_iff, Option.isNone_iff_eq_none]
    at h
  rw [plainValue_of_notMem hword, h]
  rfl

/-- the text of a scalar that is read as one -/
theorem plainValue_eq_text_iff {t u : Text} :
    plainValue t = .text u ↔ u = t ∧ t ∉ readerWords ∧ ¬ OpensNumber t := by
  constructor
  · intro h
    have hword : t ∉ readerWords := by
      intro hmem
      have hwords : ∀ word ∈ readerWords, (plainValue word).kind ≠ .text := by decide
      exact hwords t hmem (by rw [h]; rfl)
    have hopens : ¬ OpensNumber t := by
      intro hopens
      obtain ⟨x, hx⟩ := plainValue_of_opensNumber hopens
      rw [hx] at h
      cases h
    rw [plainValue_of_not_opensNumber hword hopens] at h
    cases h
    exact ⟨rfl, hword, hopens⟩
  · intro h
    rw [h.1]
    exact plainValue_of_not_opensNumber h.2.1 h.2.2

/-- what is read as neither a number nor a text is one of the words -/
theorem mem_readerWords_of_kind {t : Text} (hnumber : (plainValue t).kind ≠ .number)
    (htext : (plainValue t).kind ≠ .text) : t ∈ readerWords := by
  by_contra hword
  by_cases hopens : OpensNumber t
  · obtain ⟨x, hx⟩ := plainValue_of_opensNumber hopens
    exact hnumber (by rw [hx]; rfl)
  · exact htext (by rw [plainValue_of_not_opensNumber hword hopens]; rfl)

theorem plainValue_eq_null_iff {t : Text} :
    plainValue t = .null ↔ t = ascii "~" ∨ t = ascii "null" := by
  constructor
  · intro h
    have hkind : (plainValue t).kind = .null := by rw [h]; rfl
    have hwords : ∀ word ∈ readerWords, (plainValue word).kind = .null →
        word = ascii "~" ∨ word = ascii "null" := by decide
    refine hwords t (mem_readerWords_of_kind ?_ ?_) hkind <;> (rw [hkind]; decide)
  · intro h
    rcases h with rfl | rfl <;> rfl

theorem plainValue_eq_bool_iff {t : Text} {b : Bool} :
    plainValue t = .bool b ↔ t = ascii (if b then "true" else "false") := by
  constructor
  · intro h
    have hkind : (plainValue t).kind = .truth := by rw [h]; rfl
    have hwords : ∀ word ∈ readerWords, (plainValue word).kind = .truth →
        word = ascii "true" ∨ word = ascii "false" := by decide
    have hword : t ∈ readerWords := by
      apply mem_readerWords_of_kind <;> (rw [hkind]; decide)
    rcases hwords t hword hkind with rfl | rfl
    · have hb : Value.bool true = .bool b := h
      cases hb
      rfl
    · have hb : Value.bool false = .bool b := h
      cases hb
      rfl
  · intro h
    rw [h]
    cases b <;> rfl

theorem exists_plainValue_eq_number_iff {t : Text} :
    (∃ x, plainValue t = .number x) ↔ OpensNumber t := by
  constructor
  · intro h
    obtain ⟨x, hx⟩ := h
    by_contra hopens
    by_cases hword : t ∈ readerWords
    · have hwords : ∀ word ∈ readerWords, (plainValue word).kind ≠ .number := by decide
      exact hwords t hword (by rw [hx]; rfl)
    · rw [plainValue_of_not_opensNumber hword hopens] at hx
      cases hx
  · exact plainValue_of_opensNumber

theorem plainValue_ne_object {t : Text} {fields : List (Text × Value)} :
    plainValue t ≠ .object fields := by
  intro h
  have hkind : (plainValue t).kind = .object := by rw [h]; rfl
  have hwords : ∀ word ∈ readerWords, (plainValue word).kind ≠ .object := by decide
  refine hwords t (mem_readerWords_of_kind ?_ ?_) hkind <;> (rw [hkind]; decide)

theorem kind_plainValue_eq_number_iff {t : Text} :
    (plainValue t).kind = .number ↔ OpensNumber t := by
  rw [← exists_plainValue_eq_number_iff]
  constructor
  · intro h
    cases hv : plainValue t with
    | number x => exact ⟨x, rfl⟩
    | null | bool _ | text _ | list _ | object _ =>
      rw [hv] at h
      cases h
  · intro h
    obtain ⟨x, hx⟩ := h
    rw [hx]
    rfl

end Node
end VolumeClaim
