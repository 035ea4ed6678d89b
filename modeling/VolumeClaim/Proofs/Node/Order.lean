import VolumeClaim.Proofs.Node.Mapping

/-!
# The order of entries

A mapping becomes an object, which keeps its fields by their keys.  So the order of its entries does
not show, wherever in a tree the mapping stands, as long as no key is given twice.  Of several
entries with one key the last one counts.

* `Node.Distinct`       no mapping has two entries with one key;
* `Node.Shuffled`       the same tree with the entries of its mappings in another order;
* `Shuffled.value_eq`   both have the same value, or neither has one;
* `value_of_last_entry` the field that an entry becomes if no later one has its key.
-/

namespace VolumeClaim.Node

/-- the text of a key, which only a scalar has -/
def keyText? : Node → Option Text
  | scalar _ t => some t
  | _ => none

/-- the texts of the keys of a mapping, in the order of its entries -/
def keyTexts (entries : List (Node × Node)) : List Text := entries.filterMap fun e => e.1.keyText?

theorem keyTexts_cons (e : Node × Node) (entries : List (Node × Node)) :
    keyTexts (e :: entries) = e.1.keyText?.toList ++ keyTexts entries := by
  rw [keyTexts, List.filterMap_cons]
  cases e.1.keyText? <;> rfl

theorem keyTexts_append (before after : List (Node × Node)) :
    keyTexts (before ++ after) = keyTexts before ++ keyTexts after := List.filterMap_append

theorem keyText?_eq_some_iff {node : Node} {t : Text} :
    node.keyText? = some t ↔ ∃ tag, node = .scalar tag t := by
  constructor
  · intro h
    cases node with
    | scalar tag u =>
      cases h
      exact ⟨tag, rfl⟩
    | null | seq _ | map _ => cases h
  · intro h
    obtain ⟨tag, rfl⟩ := h
    rfl

/-! ## Entry by entry -/

theorem entryValues_cons (fields : List (Text × Value)) (key item : Node)
    (entries : List (Node × Node)) : entryValues fields ((key, item) :: entries) =
      key.keyText?.elim (.error .keyNotScalar) fun t =>
        item.value >>= fun v => entryValues (Keyed.insert t v fields) entries := by
  cases key with
  | scalar tag t => rw [entryValues, keyText?, Option.elim_some]
  | null | seq _ | map _ => rfl

theorem entryValues_append (fields : List (Text × Value)) (before after : List (Node × Node)) :
    entryValues fields (before ++ after) =
      entryValues fields before >>= fun fields' => entryValues fields' after := by
  induction before generalizing fields with
  | nil => rfl
  | cons e before ih =>
    obtain ⟨key, item⟩ := e
    rw [List.cons_append, entryValues_cons, entryValues_cons]
    cases key.keyText? with
    | none => rfl
    | some t =>
      show (item.value >>= fun v => _) = (item.value >>= fun v => _) >>= _
      rw [bind_assoc]
      exact congrArg _ (funext fun v => ih (Keyed.insert t v fields))

/-- entries with other keys leave a field alone -/
theorem lookup_of_entryValues {before fields : List (Text × Value)} {entries : List (Node × Node)}
    (h : entryValues before entries = .ok fields) {key : Text} (hkey : key ∉ keyTexts entries) :
    fields.lookup key = before.lookup key := by
  induction entries generalizing before with
  | nil =>
    cases h
    rfl
  | cons e entries ih =>
    obtain ⟨node, item⟩ := e
    rw [entryValues_cons] at h
    rw [keyTexts_cons, List.mem_append, not_or] at hkey
    cases hnode : node.keyText? with
    | none =>
      rw [hnode] at h
      cases h
    | some t =>
      rw [hnode] at h hkey
      obtain ⟨v, -, h⟩ := bind_eq_ok_iff.mp h
      have hne : key ≠ t := fun heq => hkey.1 (List.mem_singleton.mpr heq)
      rw [ih h hkey.2, Keyed.lookup_insert, if_neg hne]

/-- an entry becomes the field with its key, unless a later entry has this key too -/
theorem value_of_last_entry {before after : List (Node × Node)} {tag key : Text} {item : Node}
    {fields : List (Text × Value)}
    (h : (map (before ++ (scalar tag key, item) :: after)).value = .ok (.object fields))
    (hkey : key ∉ keyTexts after) : ∃ w, item.value = .ok w ∧ fields.lookup key = some w := by
  rw [value] at h
  cases hentries : entryValues [] (before ++ (scalar tag key, item) :: after) with
  | error fault =>
    rw [hentries] at h
    cases h
  | ok sorted =>
    rw [hentries] at h
    cases h
    rw [entryValues_append] at hentries
    obtain ⟨earlier, -, hentries⟩ := bind_eq_ok_iff.mp hentries
    rw [entryValues_cons] at hentries
    obtain ⟨w, hw, hafter⟩ := bind_eq_ok_iff.mp hentries
    refine ⟨w, hw, ?_⟩
    rw [lookup_of_entryValues hafter hkey, Keyed.lookup_insert, if_pos rfl]

/-! ## No key twice -/

/-- no mapping has two entries with one key.  A key that is no scalar is not looked into: it has no
text, and the tree has no value. -/
inductive Distinct : Node → Prop
  | null : Distinct .null
  | scalar (tag t : Text) : Distinct (.scalar tag t)
  | seq {items : List Node} (h : ∀ item ∈ items, Distinct item) : Distinct (.seq items)
  | map {entries : List (Node × Node)} (nodup : (keyTexts entries).Nodup)
    (h : ∀ e ∈ entries, Distinct e.2) : Distinct (.map entries)

theorem distinct_seq_iff {items : List Node} :
    Distinct (.seq items) ↔ ∀ item ∈ items, Distinct item := by
  constructor
  · intro h
    cases h with
    | seq h => exact h
  · exact .seq

theorem distinct_map_iff {entries : List (Node × Node)} :
    Distinct (.map entries) ↔ (keyTexts entries).Nodup ∧ ∀ e ∈ entries, Distinct e.2 := by
  constructor
  · intro h
    cases h with
    | map nodup h => exact ⟨nodup, h⟩
  · intro h
    exact .map h.1 h.2

/-! ## Entries in another order -/

/-- the same tree with the entries of its mappings in another order, at any depth: in the items of
sequences, in the items of mappings, and in their keys -/
inductive Shuffled : Node → Node → Prop
  | refl (n : Node) : Shuffled n n
  | trans {l m n : Node} (h : Shuffled l m) (h' : Shuffled m n) : Shuffled l n
  | order {entries others : List (Node × Node)} (h : entries.Perm others) :
    Shuffled (.map entries) (.map others)
  | item {m n : Node} (before after : List Node) (h : Shuffled m n) :
    Shuffled (.seq (before ++ m :: after)) (.seq (before ++ n :: after))
  | key {m n : Node} (before after : List (Node × Node)) (item : Node) (h : Shuffled m n) :
    Shuffled (.map (before ++ (m, item) :: after)) (.map (before ++ (n, item) :: after))
  | value {m n : Node} (before after : List (Node × Node)) (key : Node) (h : Shuffled m n) :
    Shuffled (.map (before ++ (key, m) :: after)) (.map (before ++ (key, n) :: after))

theorem Shuffled.keyText?_eq {m n : Node} (h : m.Shuffled n) : m.keyText? = n.keyText? := by
  induction h with
  | refl => rfl
  | trans _ _ ih ih' => exact ih.trans ih'
  | order _ | item _ _ _ | key _ _ _ _ | value _ _ _ _ => rfl

theorem Shuffled.distinct {m n : Node} (h : m.Shuffled n) (hm : m.Distinct) : n.Distinct := by
  induction h with
  | refl => exact hm
  | trans _ _ ih ih' => exact ih' (ih hm)
  | order h =>
    rw [distinct_map_iff] at hm ⊢
    refine ⟨(h.filterMap _).nodup_iff.mp hm.1, fun e he => hm.2 e (h.mem_iff.mpr he)⟩
  | item before after _ ih =>
    rw [distinct_seq_iff, List.forall_mem_append, List.forall_mem_cons] at hm ⊢
    exact ⟨hm.1, ih hm.2.1, hm.2.2⟩
  | key before after item h _ =>
    rw [distinct_map_iff, keyTexts_append, keyTexts_cons, List.forall_mem_append,
      List.forall_mem_cons] at hm ⊢
    rw [← h.keyText?_eq]
    exact hm
  | value before after key _ ih =>
    rw [distinct_map_iff, keyTexts_append, keyTexts_cons, List.forall_mem_append,
      List.forall_mem_cons] at hm ⊢
    exact ⟨hm.1, hm.2.1, ih hm.2.2.1, hm.2.2.2⟩

/-! ## The value does not depend on it -/

theorem keyTexts_of_becomes {entries : List (Node × Node)} {fields : List (Text × Value)}
    (h : List.Forall₂ Becomes entries fields) : keyTexts entries = fields.map Prod.fst := by
  induction h with
  | nil => rfl
  | cons hfirst _ ih =>
    rw [keyTexts_cons, keyText?_eq_some_iff.mpr hfirst.1, ih]
    rfl

theorem value_map_of_perm {entries others : List (Node × Node)} (h : entries.Perm others)
    (nodup : (keyTexts entries).Nodup) {v : Value} (hv : (map entries).value = .ok v) :
    (map others).value = .ok v := by
  obtain ⟨fields, hfields, rfl⟩ := value_map_eq_ok_iff.mp hv
  obtain ⟨moved, hmoved, hperm⟩ := List.perm_comp_forall₂ h.symm hfields
  refine value_map_eq_ok_iff.mpr ⟨moved, hmoved, ?_⟩
  rw [keyTexts_of_becomes hfields] at nodup
  rw [Keyed.ofList_eq_of_perm hperm.symm nodup]

/-- there is one fault only, so a mapping without a value has it in any order -/
theorem value_map_eq_of_perm {entries others : List (Node × Node)} (h : entries.Perm others)
    (nodup : (keyTexts entries).Nodup) : (map entries).value = (map others).value := by
  cases hentries : (map entries).value with
  | ok v => exact (value_map_of_perm h nodup hentries).symm
  | error fault =>
    cases hothers : (map others).value with
    | ok v =>
      have hback := value_map_of_perm h.symm ((h.filterMap _).nodup_iff.mp nodup) hothers
      rw [hentries] at hback
      cases hback
    | error other =>
      cases fault
      cases other
      rfl

theorem itemValues_append (before after : List Node) :
    itemValues (before ++ after) = itemValues before >>= fun vs =>
      itemValues after >>= fun ws => pure (vs ++ ws) := by
  induction before with
  | nil =>
    rw [List.nil_append, itemValues]
    exact (bind_pure _).symm
  | cons item before ih =>
    rw [List.cons_append, itemValues, itemValues, ih]
    simp only [bind_assoc, pure_bind, List.cons_append]

/-- the order of entries does not show in the value of a tree, and not in whether there is one -/
theorem Shuffled.value_eq {m n : Node} (h : m.Shuffled n) (hm : m.Distinct) :
    m.value = n.value := by
  induction h with
  | refl => rfl
  | trans h _ ih ih' => exact (ih hm).trans (ih' (h.distinct hm))
  | order h => exact value_map_eq_of_perm h (distinct_map_iff.mp hm).1
  | item before after _ ih =>
    rw [distinct_seq_iff, List.forall_mem_append, List.forall_mem_cons] at hm
    rw [Node.value, Node.value, itemValues_append, itemValues_append, itemValues, itemValues,
      ih hm.2.1]
  | key before after item h _ =>
    rw [Node.value, Node.value, entryValues_append, entryValues_append]
    simp only [entryValues_cons, h.keyText?_eq]
  | value before after key _ ih =>
    rw [distinct_map_iff, List.forall_mem_append, List.forall_mem_cons] at hm
    rw [Node.value, Node.value, entryValues_append, entryValues_append]
    simp only [entryValues_cons, ih hm.2.2.1]

end VolumeClaim.Node
