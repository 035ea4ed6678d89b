import VolumeClaim.Proofs.Claim.ReadBack
import VolumeClaim.Proofs.Node.Printed

/-!
# Claims printed as YAML

The tree that a claim is printed as shows the claim's value with nothing lost or moved, and a text
in it is quoted if and only if a YAML reader would take it for something else.  Keys are printed
as they are: the names of fields can be, but the keys of annotations and the names of resources are
the claim's own, and may be any text.

* `Claim.textual_document` the leaves of a claim's value are texts;
* `Claim.of_hasKey`, `Claim.hasKey_of_mem_ownKeys` its keys;
* `Claim.yaml_shows_document` what is printed.
-/

namespace VolumeClaim

namespace Value

/-! ## The fields of a document -/

section
variable (key : String)

theorem textual_textField (t : Text) : ∀ e ∈ textField key t, e.2.Textual := by
  intro e he
  unfold textField at he
  split at he
  · cases he
  · rw [List.mem_singleton.mp he]
    exact .text t

theorem textual_textsField (ts : List Text) : ∀ e ∈ textsField key ts, e.2.Textual := by
  intro e he
  unfold textsField at he
  split at he
  · cases he
  · rw [List.mem_singleton.mp he]
    refine .list fun v hv => ?_
    obtain ⟨t, -, rfl⟩ := List.mem_map.mp hv
    exact .text t

theorem textual_mapField (m : TextMap) : ∀ e ∈ mapField key m, e.2.Textual := by
  intro e he
  unfold mapField at he
  split at he
  · cases he
  · rw [List.mem_singleton.mp he]
    refine .object fun field hfield => ?_
    obtain ⟨entry, -, rfl⟩ := List.mem_map.mp hfield
    exact .text entry.2

theorem textual_partField {α : Type} {write : α → Value} (h : ∀ x, (write x).Textual)
    (part : Option α) : ∀ e ∈ partField key (part.map write), e.2.Textual := by
  intro e he
  cases part with
  | none => cases he
  | some x =>
    rw [List.mem_singleton.mp he]
    exact h x

end

/-- a key of the fields themselves or below one of them -/
def FieldsHaveKey (fields : List (Text × Value)) (key : Text) : Prop :=
  ∃ e ∈ fields, key = e.1 ∨ e.2.HasKey key

theorem fieldsHaveKey_append {xs ys : List (Text × Value)} {key : Text} :
    FieldsHaveKey (xs ++ ys) key ↔ FieldsHaveKey xs key ∨ FieldsHaveKey ys key := by
  unfold FieldsHaveKey
  simp only [List.mem_append, or_and_right, exists_or]

theorem not_hasKey_text (t key : Text) : ¬ (text t).HasKey key := by
  intro h
  obtain ⟨fields, hfields, -⟩ := h
  cases hfields

section
variable {name : String} {key : Text}

theorem eq_of_textField {t : Text} (h : FieldsHaveKey (textField name t) key) :
    key = ascii name := by
  obtain ⟨e, he, h⟩ := h
  unfold textField at he
  split at he
  · cases he
  · rw [List.mem_singleton.mp he] at h
    exact h.resolve_right (not_hasKey_text t key)

theorem eq_of_textsField {ts : List Text} (h : FieldsHaveKey (textsField name ts) key) :
    key = ascii name := by
  obtain ⟨e, he, h⟩ := h
  unfold textsField at he
  split at he
  · cases he
  · rw [List.mem_singleton.mp he] at h
    refine h.resolve_right fun hkey => ?_
    obtain ⟨fields, hfields, -⟩ := hkey
    cases hfields with
    | item hmem h =>
      obtain ⟨t, -, rfl⟩ := List.mem_map.mp hmem
      cases h

theorem hasKey_map_iff {m : TextMap} :
    (object (m.entries.map fun e => (e.1, .text e.2))).HasKey key ↔
      key ∈ m.entries.map Prod.fst := by
  rw [hasKey_object_iff]
  constructor
  · intro h
    obtain ⟨e, he, h⟩ := h
    obtain ⟨entry, hentry, rfl⟩ := List.mem_map.mp he
    rw [h.resolve_right (not_hasKey_text entry.2 key)]
    exact List.mem_map_of_mem hentry
  · intro h
    obtain ⟨entry, hentry, rfl⟩ := List.mem_map.mp h
    exact ⟨_, List.mem_map_of_mem hentry, .inl rfl⟩

theorem of_mapField {m : TextMap} (h : FieldsHaveKey (mapField name m) key) :
    key = ascii name ∨ key ∈ m.entries.map Prod.fst := by
  obtain ⟨e, he, h⟩ := h
  unfold mapField at he
  split at he
  · cases he
  · rw [List.mem_singleton.mp he] at h
    exact h.imp_right hasKey_map_iff.mp

theorem mapField_of_mem {m : TextMap} (h : key ∈ m.entries.map Prod.fst) :
    FieldsHaveKey (mapField name m) key := by
  have hentries : ¬ m.isEmpty = true := by
    intro hempty
    rw [TextMap.eq_empty hempty] at h
    cases h
  unfold mapField
  rw [if_neg hentries]
  exact ⟨_, List.mem_singleton_self _, .inr (hasKey_map_iff.mpr h)⟩

theorem of_partField {part : Option Value} (h : FieldsHaveKey (partField name part) key) :
    key = ascii name ∨ ∃ v, part = some v ∧ v.HasKey key := by
  obtain ⟨e, he, h⟩ := h
  cases part with
  | none => cases he
  | some v =>
    rw [List.mem_singleton.mp he] at h
    exact h.imp_right fun hkey => ⟨v, rfl, hkey⟩

theorem partField_of_hasKey {v : Value} (h : v.HasKey key) :
    FieldsHaveKey (partField name (some v)) key := ⟨_, List.mem_singleton_self _, .inr h⟩

end

end Value

open Value Node

theorem Metadata.textual_document (m : Metadata) : m.document.Textual := by
  refine .object ?_
  simp only [List.forall_mem_append]
  exact ⟨⟨textual_mapField _ _, textual_textField _ _⟩, textual_textField _ _⟩

theorem Resources.textual_document (r : Resources) : r.document.Textual := by
  refine .object ?_
  simp only [List.forall_mem_append]
  exact ⟨textual_mapField _ _, textual_mapField _ _⟩

theorem ClaimSpec.textual_document (s : ClaimSpec) : s.document.Textual := by
  refine .object ?_
  simp only [List.forall_mem_append]
  exact ⟨⟨textual_textsField _ _, textual_partField _ Resources.textual_document _⟩,
    textual_partField _ Textual.text _⟩

namespace Claim

theorem textual_document (c : Claim) : c.document.Textual := by
  refine .object ?_
  simp only [List.forall_mem_append]
  exact ⟨⟨⟨textual_textField _ _, textual_textField _ _⟩,
    textual_partField _ Metadata.textual_document _⟩,
    textual_partField _ ClaimSpec.textual_document _⟩

/-! ## Keys -/

def fieldNames : List Text :=
  ["apiVersion", "kind", "metadata", "annotations", "name", "namespace", "spec", "accessModes",
    "resources", "limits", "requests", "storageClassName"].map ascii

/-- the amounts, empty if there are none -/
def resourcesOrEmpty (c : Claim) : Resources := (c.spec.bind ClaimSpec.resources).getD .empty

/-- the keys that are the claim's own: of its annotations, its limits and its requests -/
def ownKeys (c : Claim) : List Text :=
  (c.annotations.entries ++ c.resourcesOrEmpty.limits.entries ++
    c.resourcesOrEmpty.requests.entries).map Prod.fst

theorem mem_ownKeys_iff {c : Claim} {key : Text} :
    key ∈ c.ownKeys ↔ key ∈ c.annotations.entries.map Prod.fst ∨
      key ∈ c.resourcesOrEmpty.limits.entries.map Prod.fst ∨
      key ∈ c.resourcesOrEmpty.requests.entries.map Prod.fst := by
  unfold ownKeys
  rw [List.map_append, List.map_append, List.mem_append, List.mem_append, or_assoc]

end Claim

section
variable {key : Text}

theorem Metadata.of_hasKey {m : Metadata} (h : m.document.HasKey key) :
    key ∈ Claim.fieldNames ∨ key ∈ m.annotations.entries.map Prod.fst := by
  rcases fieldsHaveKey_append.mp (hasKey_object_iff.mp h) with h | h
  · rcases fieldsHaveKey_append.mp h with h | h
    · rcases of_mapField h with rfl | h
      · exact .inl (by decide)
      · exact .inr h
    · rw [eq_of_textField h]
      exact .inl (by decide)
  · rw [eq_of_textField h]
    exact .inl (by decide)

theorem Resources.of_hasKey {r : Resources} (h : r.document.HasKey key) :
    key ∈ Claim.fieldNames ∨ key ∈ r.limits.entries.map Prod.fst ∨
      key ∈ r.requests.entries.map Prod.fst := by
  rcases fieldsHaveKey_append.mp (hasKey_object_iff.mp h) with h | h
  · rcases of_mapField h with rfl | h
    · exact .inl (by decide)
    · exact .inr (.inl h)
  · rcases of_mapField h with rfl | h
    · exact .inl (by decide)
    · exact .inr (.inr h)

theorem ClaimSpec.of_hasKey {s : ClaimSpec} (h : s.document.HasKey key) :
    key ∈ Claim.fieldNames ∨ ∃ r, s.resources = some r ∧ r.document.HasKey key := by
  rcases fieldsHaveKey_append.mp (hasKey_object_iff.mp h) with h | h
  · rcases fieldsHaveKey_append.mp h with h | h
    · rw [eq_of_textsField h]
      exact .inl (by decide)
    · rcases of_partField h with rfl | ⟨v, hv, h⟩
      · exact .inl (by decide)
      · obtain ⟨r, hr, rfl⟩ := Option.map_eq_some_iff.mp hv
        exact .inr ⟨r, hr, h⟩
  · rcases of_partField h with rfl | ⟨v, hv, h⟩
    · exact .inl (by decide)
    · obtain ⟨t, -, rfl⟩ := Option.map_eq_some_iff.mp hv
      exact absurd h (not_hasKey_text t key)

namespace Claim

/-- every key names a field or is the claim's own -/
theorem of_hasKey {c : Claim} (h : c.document.HasKey key) : key ∈ fieldNames ∨ key ∈ c.ownKeys := by
  rw [mem_ownKeys_iff]
  rcases fieldsHaveKey_append.mp (hasKey_object_iff.mp h) with h | h
  · rcases fieldsHaveKey_append.mp h with h | h
    · rcases fieldsHaveKey_append.mp h with h | h
      · rw [eq_of_textField h]
        exact .inl (by decide)
      · rw [eq_of_textField h]
        exact .inl (by decide)
    · rcases of_partField h with rfl | ⟨v, hv, h⟩
      · exact .inl (by decide)
      · obtain ⟨m, hm, rfl⟩ := Option.map_eq_some_iff.mp hv
        have hannotations : c.annotations = m.annotations := by
          rw [annotations, metadataOrEmpty, hm, Option.getD_some]
        rw [hannotations]
        exact (Metadata.of_hasKey h).imp_right .inl
  · rcases of_partField h with rfl | ⟨v, hv, h⟩
    · exact .inl (by decide)
    · obtain ⟨s, hs, rfl⟩ := Option.map_eq_some_iff.mp hv
      rcases ClaimSpec.of_hasKey h with h | ⟨r, hr, h⟩
      · exact .inl h
      · have hresources : c.resourcesOrEmpty = r := by
          rw [resourcesOrEmpty, hs, Option.bind_some, hr, Option.getD_some]
        rw [hresources]
        exact (Resources.of_hasKey h).imp_right .inr

theorem hasKey_of_mem_annotations {c : Claim} (h : key ∈ c.annotations.entries.map Prod.fst) :
    c.document.HasKey key := by
  cases hm : c.metadata with
  | none =>
    rw [annotations, metadataOrEmpty, hm] at h
    cases h
  | some m =>
    rw [annotations, metadataOrEmpty, hm, Option.getD_some] at h
    have hmetadata : m.document.HasKey key := by
      refine hasKey_object_iff.mpr ?_
      exact fieldsHaveKey_append.mpr (.inl (fieldsHaveKey_append.mpr (.inl (mapField_of_mem h))))
    refine hasKey_object_iff.mpr ?_
    refine fieldsHaveKey_append.mpr (.inl (fieldsHaveKey_append.mpr (.inr ?_)))
    rw [hm]
    exact partField_of_hasKey hmetadata

theorem hasKey_of_mem_resources {c : Claim}
    (h : key ∈ c.resourcesOrEmpty.limits.entries.map Prod.fst ∨
      key ∈ c.resourcesOrEmpty.requests.entries.map Prod.fst) : c.document.HasKey key := by
  cases hr : c.spec.bind ClaimSpec.resources with
  | none =>
    rw [resourcesOrEmpty, hr] at h
    rcases h with h | h <;> cases h
  | some r =>
    rw [resourcesOrEmpty, hr, Option.getD_some] at h
    obtain ⟨s, hs, hresources⟩ := Option.bind_eq_some_iff.mp hr
    have hamounts : r.document.HasKey key := by
      refine hasKey_object_iff.mpr (fieldsHaveKey_append.mpr ?_)
      exact h.imp mapField_of_mem mapField_of_mem
    have hspec : s.document.HasKey key := by
      refine hasKey_object_iff.mpr ?_
      refine fieldsHaveKey_append.mpr (.inl (fieldsHaveKey_append.mpr (.inr ?_)))
      rw [hresources]
      exact partField_of_hasKey hamounts
    refine hasKey_object_iff.mpr (fieldsHaveKey_append.mpr (.inr ?_))
    rw [hs]
    exact partField_of_hasKey hspec

theorem hasKey_of_mem_ownKeys {c : Claim} (h : key ∈ c.ownKeys) : c.document.HasKey key := by
  rcases mem_ownKeys_iff.mp h with h | h
  · exact hasKey_of_mem_annotations h
  · exact hasKey_of_mem_resources h

end Claim

end

theorem not_takenForOther_of_mem_fieldNames {key : Text} (h : key ∈ Claim.fieldNames) :
    ¬ TakenForOther key := by
  have hnames : ∀ name ∈ Claim.fieldNames, needsQuotes name = false := by decide
  rw [← needsQuotes_iff, hnames key h]
  exact Bool.false_ne_true

namespace Claim

/-! ## What is printed -/

/-- a tree shows a claim: its value with nothing lost, added or moved, and with the quotes that its
texts need; the fields of the value may come in any order -/
structure Shows (c : Claim) (n : Node) : Prop where
  document : n.unquoted = some c.document
  shuffled : ∀ v, c.document.Shuffled v → v.yaml = n
  ascending : ∀ entries, (Node.map entries).Within n →
    ∃ keys : List Text, entries.map Prod.fst = keys.map .plain ∧ keys.Pairwise (· < ·)
  quotes : ∀ tag t, (Node.scalar tag t).Within n →
    tag = quotedTag ∧ TakenForOther t ∨ tag = plainTag ∧ ¬ TakenForOther t
  keys : (∀ key, n.HasKey (.plain key) → ¬ TakenForOther key) ↔
    ∀ key ∈ c.ownKeys, ¬ TakenForOther key

/-- **A claim is printed as a tree that shows it**: keys ascend in every mapping, and a text is plain
if and only if a reader takes it for itself.  The keys are plain too, so they are all taken for
themselves if and only if the claim's own keys are. -/
theorem yaml_shows_document (c : Claim) : c.Shows c.yaml := by
  have hkeys : (∀ key, c.yaml.HasKey (.plain key) → ¬ TakenForOther key) ↔
      ∀ key ∈ c.ownKeys, ¬ TakenForOther key := by
    have hdocument (key : Text) : c.yaml.HasKey (.plain key) ↔ c.document.HasKey key :=
      hasKey_yaml_iff c.ordered_document
    constructor
    · intro h key hkey
      exact h key ((hdocument key).mpr (hasKey_of_mem_ownKeys hkey))
    · intro h key hkey
      rcases of_hasKey ((hdocument key).mp hkey) with hname | hown
      · exact not_takenForOther_of_mem_fieldNames hname
      · exact h key hown
  refine ⟨?_, ?_, ?_, ?_, hkeys⟩
  · exact unquoted_yaml c.document c.textual_document c.ordered_document
  · exact fun v h => h.yaml_eq.symm
  · exact fun entries h => keys_of_within_yaml h
  · exact fun tag t h => scalar_of_within_yaml c.textual_document h

/-- a word for a truth value is quoted as a text, but not as the key of an annotation -/
theorem truth_word_key_stays_plain :
    let c : Claim := { empty with metadata := some { Metadata.empty with
      annotations := TextMap.empty.insert (ascii "true") (ascii "true") } }
    c.yaml = .map [(.plain (ascii "metadata"), .map [(.plain (ascii "annotations"),
        .map [(.plain (ascii "true"), .quoted (ascii "true"))])])] ∧
      TakenForOther (ascii "true") ∧ c.yaml.HasKey (.plain (ascii "true")) := by
  intro c
  have hkey : (ascii "true") ∈ c.ownKeys := by decide
  exact ⟨rfl, .truth (by decide),
    (hasKey_yaml_iff c.ordered_document).mpr (hasKey_of_mem_ownKeys hkey)⟩

end Claim
end VolumeClaim
