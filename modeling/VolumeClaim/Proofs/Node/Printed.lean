import VolumeClaim.Proofs.Node.ReadBack
import VolumeClaim.Proofs.TextMap

/-!
# What a written tree shows

The tree that a value is written as shows the value once its quotes are forgotten.  Its parts are
written parts of the value, so what holds of every mapping or scalar of the tree, at any depth, is
read off one mapping or scalar.

* `Node.needsQuotes_iff`  which texts are quoted, by what a YAML reader takes them for;
* `Value.unquoted_yaml`   the tree of a value of texts, with its quotes forgotten;
* `Value.Shuffled.yaml_eq` the order in which the fields of a value come does not show;
* `Value.exists_within_of_yaml` the parts of a tree;
* `Value.keys_of_within_yaml`, `Value.scalar_of_within_yaml` mappings and scalars among them.
-/

namespace VolumeClaim

namespace Node
open Text Grammar

/-! ## Texts that are not read as themselves -/

/-- the words for truth values: in lower case, with a capital initial, and in capitals -/
def truthSpellings : List Text :=
  ["y", "Y", "n", "N", "yes", "Yes", "YES", "no", "No", "NO", "true", "True", "TRUE", "false",
    "False", "FALSE", "on", "On", "ON", "off", "Off", "OFF"].map ascii

/-- what a YAML reader takes a plain text for, if not for itself: null, a truth value or a number -/
inductive TakenForOther (t : Text) : Prop
  | null (h : t = [] ∨ t = ascii "~" ∨ lower t = ascii "null")
  | truth (h : t ∈ truthSpellings)
  | decimal (h : IsSignedDecimal t)
  | infinity (sign : Sign) {word : Text} (hword : word ∈ infinityWords) (h : t = sign.text ++ word)
  | nan (h : t ∈ nanWords)

theorem readsAsNull_iff (t : Text) :
    readsAsNull t = true ↔ t = [] ∨ t = ascii "~" ∨ lower t = ascii "null" := by
  rw [readsAsNull, Bool.or_eq_true, Bool.or_eq_true, List.isEmpty_iff, decide_eq_true_eq,
    decide_eq_true_eq, or_assoc]

theorem readsAsTruth_iff (t : Text) : readsAsTruth t = true ↔ t ∈ truthSpellings := by
  constructor
  · intro h
    have hspellings : ∀ word ∈ truthWords, word ∈ truthSpellings ∧
        word.map upperByte ∈ truthSpellings ∧ capitalized word ∈ truthSpellings := by decide
    obtain ⟨word, hword, h⟩ := List.any_eq_true.mp h
    rw [Bool.or_eq_true, Bool.or_eq_true, decide_eq_true_eq, decide_eq_true_eq,
      decide_eq_true_eq] at h
    obtain ⟨hlower, hupper, hcapital⟩ := hspellings word hword
    rcases h with (rfl | rfl) | rfl
    · exact hlower
    · exact hupper
    · exact hcapital
  · intro h
    have hall : ∀ word ∈ truthSpellings, readsAsTruth word = true := by decide
    exact hall t h

theorem needsQuotes_iff (t : Text) : needsQuotes t = true ↔ TakenForOther t := by
  rw [needsQuotes, Bool.or_eq_true, Bool.or_eq_true, readsAsNull_iff, readsAsTruth_iff,
    readsAsNumber_iff]
  constructor
  · intro h
    rcases h with (h | h) | h | ⟨sign, word, hword, h⟩ | h
    · exact .null h
    · exact .truth h
    · exact .decimal h
    · exact .infinity sign hword h
    · exact .nan h
  · intro h
    cases h with
    | null h => exact .inl (.inl h)
    | truth h => exact .inl (.inr h)
    | decimal h => exact .inr (.inl h)
    | infinity sign hword h => exact .inr (.inr (.inl ⟨sign, _, hword, h⟩))
    | nan h => exact .inr (.inr (.inr h))

/-! ## Forgetting the quotes -/

mutual

/-- the value of a tree whose scalars are all texts, quoted or not -/
def unquoted : Node → Option Value
  | .null => some .null
  | .scalar _ t => some (.text t)
  | .seq items => (unquotedItems items).map .list
  | .map entries => (unquotedEntries entries).map .object

def unquotedItems : List Node → Option (List Value)
  | [] => some []
  | item :: items => do
    let v ← item.unquoted
    let vs ← unquotedItems items
    return v :: vs

/-- the entries keep their order; only scalars are keys -/
def unquotedEntries : List (Node × Node) → Option (List (Text × Value))
  | [] => some []
  | (.scalar _ key, item) :: entries => do
    let v ← item.unquoted
    let fields ← unquotedEntries entries
    return (key, v) :: fields
  | _ :: _ => none

end

theorem unquoted_ofText (t : Text) : (ofText t).unquoted = some (.text t) := by
  unfold ofText
  split <;> rfl

/-- a tree is part of another, as an item or under a key, at any depth -/
inductive Within (part : Node) : Node → Prop
  | self : Within part part
  | item {item : Node} {items : List Node} (hmem : item ∈ items) (h : Within part item) :
    Within part (.seq items)
  | value {e : Node × Node} {entries : List (Node × Node)} (hmem : e ∈ entries)
    (h : Within part e.2) : Within part (.map entries)

/-- a key of a mapping at any depth -/
def HasKey (n key : Node) : Prop :=
  ∃ entries, (Node.map entries).Within n ∧ key ∈ entries.map Prod.fst

end Node

namespace Value
open Node

/-! ## The parts of a value -/

/-- a value is part of another, as an item or as the value of a field, at any depth -/
inductive Within (part : Value) : Value → Prop
  | self : Within part part
  | item {v : Value} {items : List Value} (hmem : v ∈ items) (h : Within part v) :
    Within part (.list items)
  | field {e : Text × Value} {fields : List (Text × Value)} (hmem : e ∈ fields)
    (h : Within part e.2) : Within part (.object fields)

/-- a key of an object at any depth -/
def HasKey (v : Value) (key : Text) : Prop :=
  ∃ fields, (Value.object fields).Within v ∧ key ∈ fields.map Prod.fst

theorem hasKey_object_iff {fields : List (Text × Value)} {key : Text} :
    (object fields).HasKey key ↔ ∃ e ∈ fields, key = e.1 ∨ e.2.HasKey key := by
  constructor
  · intro h
    obtain ⟨inner, hinner, hkey⟩ := h
    cases hinner with
    | self =>
      obtain ⟨e, he, rfl⟩ := List.mem_map.mp hkey
      exact ⟨e, he, .inl rfl⟩
    | field hmem h => exact ⟨_, hmem, .inr ⟨inner, h, hkey⟩⟩
  · intro h
    obtain ⟨e, he, rfl | ⟨inner, hinner, hkey⟩⟩ := h
    · exact ⟨fields, .self, List.mem_map_of_mem he⟩
    · exact ⟨inner, .field he hinner, hkey⟩

/-- the leaves are texts -/
inductive Textual : Value → Prop
  | text (t : Text) : Textual (.text t)
  | list {items : List Value} (h : ∀ v ∈ items, Textual v) : Textual (.list items)
  | object {fields : List (Text × Value)} (h : ∀ e ∈ fields, Textual e.2) :
    Textual (.object fields)

theorem Textual.of_within {v part : Value} (h : v.Textual) (hpart : part.Within v) :
    part.Textual := by
  induction hpart with
  | self => exact h
  | item hmem _ ih =>
    cases h with
    | list h => exact ih (h _ hmem)
  | field hmem _ ih =>
    cases h with
    | object h => exact ih (h _ hmem)

/-! ## The tree of a value -/

theorem yamlItems_eq_map (items : List Value) : yamlItems items = items.map yaml := by
  induction items with
  | nil => rfl
  | cons v items ih => rw [yamlItems, ih, List.map_cons]

theorem yamlFields_eq_map (fields : List (Text × Value)) :
    yamlFields fields = fields.map fun e => (e.1, e.2.yaml) := by
  induction fields with
  | nil => rfl
  | cons field fields ih => rw [yamlFields, ih, List.map_cons]

/-- the entries that the fields of an object are written as -/
def yamlEntries (fields : List (Text × Value)) : List (Node × Node) :=
  (Keyed.ofList (yamlFields fields)).map Node.entry

theorem exists_of_mem_yamlEntries {e : Node × Node} {fields : List (Text × Value)}
    (h : e ∈ yamlEntries fields) : ∃ field ∈ fields, e = (.plain field.1, field.2.yaml) := by
  obtain ⟨sorted, hsorted, rfl⟩ := List.mem_map.mp h
  have hfield : sorted ∈ fields.map fun e => (e.1, e.2.yaml) := by
    rw [← yamlFields_eq_map]
    exact Keyed.mem_of_mem_ofList hsorted
  obtain ⟨field, hmem, rfl⟩ := List.mem_map.mp hfield
  exact ⟨field, hmem, rfl⟩

theorem yaml_eq_seq {v : Value} {items : List Node} (h : v.yaml = .seq items) :
    ∃ vs, v = .list vs ∧ items = vs.map yaml := by
  cases v with
  | list vs =>
    refine ⟨vs, rfl, ?_⟩
    rw [← yamlItems_eq_map]
    exact (Node.seq.inj h).symm
  | text t =>
    rw [yaml, ofText] at h
    split at h <;> cases h
  | null | bool b | number x | object fields => cases h

theorem yaml_eq_map {v : Value} {entries : List (Node × Node)} (h : v.yaml = .map entries) :
    ∃ fields, v = .object fields ∧ entries = yamlEntries fields := by
  cases v with
  | object fields => exact ⟨fields, rfl, (Node.map.inj h).symm⟩
  | text t =>
    rw [yaml, ofText] at h
    split at h <;> cases h
  | null | bool b | number x | list items => cases h

/-- every part of a written tree is a written part of the value -/
theorem exists_within_of_yaml {part : Node} {v : Value} (h : part.Within v.yaml) :
    ∃ w : Value, w.Within v ∧ part = w.yaml := by
  generalize htree : v.yaml = tree at h
  induction h generalizing v with
  | self => exact ⟨v, .self, htree.symm⟩
  | item hmem _ ih =>
    obtain ⟨vs, rfl, rfl⟩ := yaml_eq_seq htree
    obtain ⟨item, hitem, rfl⟩ := List.mem_map.mp hmem
    obtain ⟨w, hw, rfl⟩ := ih rfl
    exact ⟨w, .item hitem hw, rfl⟩
  | value hmem _ ih =>
    obtain ⟨fields, rfl, rfl⟩ := yaml_eq_map htree
    obtain ⟨field, hfield, rfl⟩ := exists_of_mem_yamlEntries hmem
    obtain ⟨w, hw, rfl⟩ := ih rfl
    exact ⟨w, .field hfield hw, rfl⟩

theorem ordered_of_mem {items : List Value} (h : OrderedItems items) {v : Value} (hv : v ∈ items) :
    v.Ordered := by
  induction items with
  | nil => cases hv
  | cons w items ih =>
    rcases List.mem_cons.mp hv with rfl | hv
    · exact h.1
    · exact ih h.2 hv

theorem ordered_of_mem_fields {fields : List (Text × Value)} (h : OrderedFields fields)
    {e : Text × Value} (he : e ∈ fields) : e.2.Ordered := by
  induction fields with
  | nil => cases he
  | cons field fields ih =>
    rcases List.mem_cons.mp he with rfl | he
    · exact h.1
    · exact ih h.2 he

theorem yamlEntries_of_ascending {fields : List (Text × Value)} (h : Keyed.Ascending fields) :
    yamlEntries fields = fields.map fun e => (.plain e.1, e.2.yaml) := by
  unfold yamlEntries
  rw [Keyed.ofList_of_ascending ((ascending_yamlFields_iff fields).mpr h), yamlFields_eq_map,
    List.map_map]
  rfl

/-- and every part of an ordered value is written, in order -/
theorem within_yaml {part v : Value} (h : part.Within v) (ho : v.Ordered) :
    part.yaml.Within v.yaml ∧ part.Ordered := by
  induction h with
  | self => exact ⟨.self, ho⟩
  | item hmem _ ih =>
    obtain ⟨hwithin, hpart⟩ := ih (ordered_of_mem ho hmem)
    refine ⟨.item ?_ hwithin, hpart⟩
    rw [yamlItems_eq_map]
    exact List.mem_map_of_mem hmem
  | @field e fields hmem _ ih =>
    obtain ⟨hwithin, hpart⟩ := ih (ordered_of_mem_fields ho.2 hmem)
    have hentry : (Node.plain e.1, e.2.yaml) ∈ yamlEntries fields := by
      rw [yamlEntries_of_ascending ho.1]
      exact List.mem_map_of_mem hmem
    exact ⟨.value hentry hwithin, hpart⟩

/-- the keys are those of the value, without quotes -/
theorem hasKey_yaml_iff {v : Value} (ho : v.Ordered) {key : Text} :
    v.yaml.HasKey (.plain key) ↔ v.HasKey key := by
  constructor
  · intro h
    obtain ⟨entries, hentries, hkey⟩ := h
    obtain ⟨w, hw, hmap⟩ := exists_within_of_yaml hentries
    obtain ⟨fields, rfl, rfl⟩ := yaml_eq_map hmap.symm
    obtain ⟨e, he, hfst⟩ := List.mem_map.mp hkey
    obtain ⟨field, hfield, rfl⟩ := exists_of_mem_yamlEntries he
    cases hfst
    exact ⟨fields, hw, List.mem_map_of_mem hfield⟩
  · intro h
    obtain ⟨fields, hfields, hkey⟩ := h
    obtain ⟨hwithin, hascending, -⟩ := within_yaml hfields ho
    obtain ⟨field, hfield, rfl⟩ := List.mem_map.mp hkey
    refine ⟨yamlEntries fields, hwithin, ?_⟩
    rw [yamlEntries_of_ascending hascending, List.map_map]
    exact List.mem_map_of_mem hfield

/-- the keys of every mapping are plain and ascend -/
theorem keys_of_within_yaml {v : Value} {entries : List (Node × Node)}
    (h : (Node.map entries).Within v.yaml) :
    ∃ keys : List Text, entries.map Prod.fst = keys.map .plain ∧ keys.Pairwise (· < ·) := by
  obtain ⟨w, -, hw⟩ := exists_within_of_yaml h
  obtain ⟨fields, -, rfl⟩ := yaml_eq_map hw.symm
  refine ⟨(Keyed.ofList (yamlFields fields)).map Prod.fst, ?_,
    Keyed.ascending_iff.mp (Keyed.ascending_ofList _)⟩
  unfold yamlEntries
  rw [List.map_map, List.map_map]
  rfl

/-- a scalar is quoted if its text would be taken for something else, and only then -/
theorem scalar_of_within_yaml {v : Value} (hv : v.Textual) {tag t : Text}
    (h : (Node.scalar tag t).Within v.yaml) :
    tag = quotedTag ∧ TakenForOther t ∨ tag = plainTag ∧ ¬ TakenForOther t := by
  obtain ⟨w, hw, hscalar⟩ := exists_within_of_yaml h
  cases hv.of_within hw with
  | list h => cases hscalar
  | object h => cases hscalar
  | text u =>
    rw [yaml, ofText] at hscalar
    split at hscalar
    · rename_i hquotes
      cases hscalar
      exact .inl ⟨rfl, (needsQuotes_iff t).mp hquotes⟩
    · rename_i hquotes
      cases hscalar
      exact .inr ⟨rfl, fun htaken => hquotes ((needsQuotes_iff t).mpr htaken)⟩

/-! ## With the quotes forgotten -/

mutual

theorem unquoted_yaml (v : Value) (ht : v.Textual) (ho : v.Ordered) : v.yaml.unquoted = some v := by
  match v with
  | .text t => exact unquoted_ofText t
  | .list items =>
    have hitems : ∀ v ∈ items, v.Textual := by
      cases ht with
      | list h => exact h
    show (unquotedItems (yamlItems items)).map _ = _
    rw [unquotedItems_yamlItems items hitems ho]
    rfl
  | .object fields =>
    have hfields : ∀ e ∈ fields, e.2.Textual := by
      cases ht with
      | object h => exact h
    show (unquotedEntries ((Keyed.ofList (yamlFields fields)).map entry)).map _ = _
    rw [Keyed.ofList_of_ascending ((ascending_yamlFields_iff fields).mpr ho.1),
      unquotedEntries_yamlFields fields hfields ho.2]
    rfl
  | .null | .bool _ | .number _ => cases ht

theorem unquotedItems_yamlItems (items : List Value) (ht : ∀ v ∈ items, v.Textual)
    (ho : OrderedItems items) : unquotedItems (yamlItems items) = some items := by
  match items with
  | [] => rfl
  | v :: items =>
    rw [List.forall_mem_cons] at ht
    rw [yamlItems, unquotedItems, unquoted_yaml v ht.1 ho.1,
      unquotedItems_yamlItems items ht.2 ho.2]
    rfl

theorem unquotedEntries_yamlFields (fields : List (Text × Value))
    (ht : ∀ e ∈ fields, e.2.Textual) (ho : OrderedFields fields) :
    unquotedEntries ((yamlFields fields).map entry) = some fields := by
  match fields with
  | [] => rfl
  | (key, v) :: fields =>
    rw [List.forall_mem_cons] at ht
    rw [yamlFields, List.map_cons, entry, plain, unquotedEntries, unquoted_yaml v ht.1 ho.1,
      unquotedEntries_yamlFields fields ht.2 ho.2]
    rfl

end

/-! ## Fields in another order -/

/-- the same value with the fields of its objects in another order, at any depth; no two fields of
an object have one key -/
inductive Shuffled : Value → Value → Prop
  | refl (v : Value) : Shuffled v v
  | trans {u v w : Value} (h : Shuffled u v) (h' : Shuffled v w) : Shuffled u w
  | object {fields others : List (Text × Value)} (distinct : (fields.map Prod.fst).Nodup)
    (h : fields.Perm others) : Shuffled (.object fields) (.object others)
  | item {v w : Value} (before after : List Value) (h : Shuffled v w) :
    Shuffled (.list (before ++ v :: after)) (.list (before ++ w :: after))
  | field {v w : Value} (before after : List (Text × Value)) (key : Text) (h : Shuffled v w) :
    Shuffled (.object (before ++ (key, v) :: after)) (.object (before ++ (key, w) :: after))

/-- the fields are sorted, so the order in which they come does not show -/
theorem Shuffled.yaml_eq {v w : Value} (h : Shuffled v w) : v.yaml = w.yaml := by
  induction h with
  | refl => rfl
  | trans _ _ ih ih' => exact ih.trans ih'
  | @object fields others distinct h =>
    have hperm : (yamlFields fields).Perm (yamlFields others) := by
      rw [yamlFields_eq_map, yamlFields_eq_map]
      exact h.map _
    have hdistinct : ((yamlFields fields).map Prod.fst).Nodup := by
      rw [map_fst_yamlFields]
      exact distinct
    rw [yaml, yaml, Keyed.ofList_eq_of_perm hperm hdistinct]
  | item before after _ ih =>
    rw [yaml, yaml, yamlItems_eq_map, yamlItems_eq_map, List.map_append, List.map_append,
      List.map_cons, List.map_cons, ih]
  | field before after key _ ih =>
    rw [yaml, yaml, yamlFields_eq_map, yamlFields_eq_map, List.map_append, List.map_append,
      List.map_cons, List.map_cons, ih]

end Value
end VolumeClaim
