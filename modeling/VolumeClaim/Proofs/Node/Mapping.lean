import Mathlib.Data.List.Perm.Basic
import VolumeClaim.Proofs.Except
import VolumeClaim.Proofs.Node.Typing
import VolumeClaim.Proofs.TextMap

/-!
# The values of mappings

A mapping becomes an object if all of its keys are scalars and all of its items have values; an
entry becomes a field with the text of its key and the value of its item.

* `Node.value_map_eq_ok_iff` the value of a mapping;
* `Node.Lists.value`         the order of entries with different keys does not matter;
* `Node.has_of_value_eq_object`, `Node.isText_of_value_eq_text` what an object and a text can come
  from.
-/

namespace VolumeClaim.Node

/-- what an entry of a mapping becomes -/
def Becomes (entry : Node × Node) (field : Text × Value) : Prop :=
  (∃ tag, entry.1 = .scalar tag field.1) ∧ entry.2.value = .ok field.2

theorem entryValues_eq_ok_iff {entries : List (Node × Node)} {before fields : List (Text × Value)} :
    entryValues before entries = .ok fields ↔ ∃ added, List.Forall₂ Becomes entries added ∧
      fields = added.foldl (fun sorted e => Keyed.insert e.1 e.2 sorted) before := by
  induction entries generalizing before with
  | nil =>
    constructor
    · intro h
      cases h
      exact ⟨[], .nil, rfl⟩
    · intro h
      obtain ⟨added, hadded, rfl⟩ := h
      cases hadded
      rfl
  | cons entry entries ih =>
    obtain ⟨node, item⟩ := entry
    cases node with
    | scalar tag key =>
      rw [entryValues, bind_eq_ok_iff]
      constructor
      · intro h
        obtain ⟨v, hv, h⟩ := h
        obtain ⟨added, hadded, rfl⟩ := ih.mp h
        exact ⟨(key, v) :: added, .cons ⟨⟨tag, rfl⟩, hv⟩ hadded, rfl⟩
      · intro h
        obtain ⟨added, hadded, rfl⟩ := h
        cases hadded with
        | @cons _ field _ added hfirst hrest =>
          obtain ⟨⟨_, hkey⟩, hv⟩ := hfirst
          cases hkey
          exact ⟨field.2, hv, ih.mpr ⟨added, hrest, rfl⟩⟩
    | null | seq _ | map _ =>
      constructor
      · intro h
        cases h
      · intro h
        obtain ⟨added, hadded, -⟩ := h
        cases hadded with
        | cons hfirst _ =>
          obtain ⟨⟨tag, hkey⟩, -⟩ := hfirst
          cases hkey

theorem value_map_eq_ok_iff {entries : List (Node × Node)} {v : Value} :
    (map entries).value = .ok v ↔
      ∃ fields, List.Forall₂ Becomes entries fields ∧ v = .object (Keyed.ofList fields) := by
  rw [value]
  constructor
  · intro h
    cases hentries : entryValues [] entries with
    | error fault =>
      rw [hentries] at h
      cases h
    | ok sorted =>
      rw [hentries] at h
      cases h
      obtain ⟨fields, hfields, rfl⟩ := entryValues_eq_ok_iff.mp hentries
      exact ⟨fields, hfields, rfl⟩
  · intro h
    obtain ⟨fields, hfields, rfl⟩ := h
    rw [entryValues_eq_ok_iff.mpr ⟨fields, hfields, rfl⟩]
    rfl

/-! ## Mappings in any order -/

/-- a mapping of these items to their keys, in any order; a key may be quoted or not -/
def Lists (node : Node) (items : List (Text × Node)) : Prop :=
  ∃ listed : List (Text × Text × Node),
    node = .map (listed.map fun e => (.scalar e.1 e.2.1, e.2.2)) ∧ (listed.map Prod.snd).Perm items

theorem Lists.value {node : Node} {items : List (Text × Node)} {fields : List (Text × Value)}
    (h : node.Lists items)
    (hitems : List.Forall₂ (fun item field => item.1 = field.1 ∧ item.2.value = .ok field.2)
      items fields)
    (hascending : Keyed.Ascending fields) : node.value = .ok (.object fields) := by
  obtain ⟨listed, rfl, hperm⟩ := h
  obtain ⟨added, hadded, hfields⟩ := List.perm_comp_forall₂ hperm hitems
  have hentries : List.Forall₂ Becomes
      (listed.map fun e => ((scalar e.1 e.2.1 : Node), e.2.2)) added := by
    rw [List.forall₂_map_left_iff] at hadded ⊢
    refine hadded.imp fun e field hfield => ?_
    exact ⟨⟨e.1, by rw [hfield.1]⟩, hfield.2⟩
  have hdistinct : (added.map Prod.fst).Nodup :=
    (hfields.map Prod.fst).nodup_iff.mpr hascending.nodup_keys
  refine value_map_eq_ok_iff.mpr ⟨added, hentries, ?_⟩
  rw [Keyed.ofList_eq_of_perm hfields hdistinct, Keyed.ofList_of_ascending hascending]

/-! ## Where a value comes from -/

/-- a mapping with this item under this key, among others -/
def Has (node : Node) (key : Text) (item : Node) : Prop :=
  ∃ entries tag, node = .map entries ∧ (.scalar tag key, item) ∈ entries

/-- a scalar with this text that is quoted, or that cannot be read as anything else -/
def IsText (node : Node) (t : Text) : Prop :=
  ∃ tag, node = .scalar tag t ∧ (tag = quotedTag ∨ t ∉ readerWords ∧ ¬ OpensNumber t)

theorem isText_of_value_eq_text {node : Node} {t : Text} (h : node.value = .ok (.text t)) :
    node.IsText t := by
  cases node with
  | null => cases h
  | scalar tag u =>
    have hvalue : scalarValue tag u = .text t := by
      rw [value] at h
      exact Except.ok.inj h
    unfold scalarValue at hvalue
    by_cases htag : tag = quotedTag
    · rw [if_pos htag] at hvalue
      cases hvalue
      exact ⟨tag, rfl, .inl htag⟩
    · rw [if_neg htag] at hvalue
      obtain ⟨rfl, hplain⟩ := plainValue_eq_text_iff.mp hvalue
      exact ⟨tag, rfl, .inr hplain⟩
  | seq items =>
    rw [value] at h
    cases hitems : itemValues items <;> (rw [hitems] at h; cases h)
  | map entries =>
    obtain ⟨_, -, hv⟩ := value_map_eq_ok_iff.mp h
    cases hv

theorem exists_of_mem_becomes {entries : List (Node × Node)} {fields : List (Text × Value)}
    (h : List.Forall₂ Becomes entries fields) {field : Text × Value} (hmem : field ∈ fields) :
    ∃ entry ∈ entries, Becomes entry field := by
  induction h with
  | nil => cases hmem
  | @cons entry _ _ _ hfirst _ ih =>
    rcases List.mem_cons.mp hmem with rfl | hmem
    · exact ⟨entry, List.mem_cons_self, hfirst⟩
    · obtain ⟨other, hother, hbecomes⟩ := ih hmem
      exact ⟨other, List.mem_cons_of_mem _ hother, hbecomes⟩

theorem has_of_value_eq_object {node : Node} {fields : List (Text × Value)}
    (h : node.value = .ok (.object fields)) {key : Text} {v : Value} (hmem : (key, v) ∈ fields) :
    ∃ item, node.Has key item ∧ item.value = .ok v := by
  cases node with
  | null => cases h
  | scalar tag t =>
    rw [value] at h
    have hvalue : scalarValue tag t = .object fields := Except.ok.inj h
    unfold scalarValue at hvalue
    split at hvalue
    · cases hvalue
    · exact absurd hvalue plainValue_ne_object
  | seq items =>
    rw [value] at h
    cases hitems : itemValues items <;> (rw [hitems] at h; cases h)
  | map entries =>
    obtain ⟨added, hadded, hv⟩ := value_map_eq_ok_iff.mp h
    cases hv
    obtain ⟨⟨node, item⟩, hentry, hbecomes⟩ :=
      exists_of_mem_becomes hadded (Keyed.mem_of_mem_ofList hmem)
    obtain ⟨⟨tag, rfl⟩, hitem⟩ := hbecomes
    exact ⟨item, ⟨entries, tag, rfl, hentry⟩, hitem⟩

end VolumeClaim.Node
