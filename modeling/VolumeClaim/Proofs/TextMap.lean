import Mathlib.Data.List.Induction
import Mathlib.Data.List.Nodup
import VolumeClaim.TextMap

/-!
# What is found in a map

A change to a map changes what is found under one key, and a map is what is found in it: the order
of its entries is that of their keys, and says nothing more.

* `TextMap.get?_insert`, `get?_erase` what is found after a change;
* `Keyed.lookup_ofList`    what is found after all entries are put in, one by one;
* `Keyed.ofList_eq_of_perm` their order does not matter if no two have one key;
* `TextMap.ext_get?`       two maps in which the same is found are one.
-/

namespace VolumeClaim

namespace Keyed
variable {α : Type}

theorem lookup_cons (key other : Text) (x : α) (entries : List (Text × α)) :
    ((key, x) :: entries).lookup other = if other = key then some x else entries.lookup other := by
  by_cases h : other = key
  · rw [if_pos h, h, List.lookup_cons_self]
  · rw [if_neg h, List.lookup_cons, beq_false_of_ne h]

theorem lookup_insert (key other : Text) (x : α) (entries : List (Text × α)) :
    (insert key x entries).lookup other = if other = key then some x else entries.lookup other := by
  induction entries with
  | nil => exact lookup_cons key other x []
  | cons e rest ih =>
    obtain ⟨k, y⟩ := e
    unfold insert
    by_cases hlt : key < k
    · rw [if_pos hlt, lookup_cons]
    rw [if_neg hlt]
    by_cases heq : key = k
    · rw [if_pos heq, lookup_cons, lookup_cons, heq]
      split <;> rfl
    · rw [if_neg heq, lookup_cons, lookup_cons, ih]
      -- no text is both keys, so it does not matter which one is compared first
      have hne : other = k → other ≠ key := fun hk h => heq (h.symm.trans hk)
      exact ite_ite_comm _ _ _ _ hne

theorem lookup_erase (key other : Text) (entries : List (Text × α)) :
    (erase key entries).lookup other = if other = key then none else entries.lookup other := by
  induction entries with
  | nil => exact (ite_self none).symm
  | cons e rest ih =>
    obtain ⟨k, y⟩ := e
    unfold erase at ih ⊢
    rw [lookup_cons]
    by_cases heq : k = key
    · rw [List.filter_cons_of_neg (by simpa using heq), ih, heq]
      split <;> rfl
    · rw [List.filter_cons_of_pos (by simpa using heq), lookup_cons, ih]
      have hne : other = k → other ≠ key := fun hk h => heq (hk.symm.trans h)
      exact ite_ite_comm _ _ _ _ hne

theorem Ascending.nodup_keys {entries : List (Text × α)} (h : Ascending entries) :
    (entries.map Prod.fst).Nodup := by
  refine (ascending_iff.mp h).imp ?_
  rintro key _ hlt rfl
  exact List.lt_irrefl key hlt

/-- entries in ascending order are what is found among them -/
theorem Ascending.eq_of_lookup_eq {entries others : List (Text × α)} (h : Ascending entries)
    (h' : Ascending others) (hlookup : ∀ key, entries.lookup key = others.lookup key) :
    entries = others := by
  have hmem : ∀ e, e ∈ entries ↔ e ∈ others := by
    intro e
    rw [← lookup_eq_some_iff_mem h.nodup_keys, hlookup, lookup_eq_some_iff_mem h'.nodup_keys]
  have hperm : entries.Perm others :=
    (List.perm_ext_iff_of_nodup h.nodup_keys.of_map h'.nodup_keys.of_map).mpr hmem
  exact hperm.eq_of_pairwise (fun _ _ _ _ hlt hgt => absurd hgt (List.lt_asymm hlt)) h h'

theorem ofList_concat (entries : List (Text × α)) (e : Text × α) :
    ofList (entries ++ [e]) = insert e.1 e.2 (ofList entries) := by
  unfold ofList
  rw [List.foldl_append]
  rfl

/-- of several entries with one key the last one is found -/
theorem lookup_ofList (key : Text) (entries : List (Text × α)) :
    (ofList entries).lookup key = entries.reverse.lookup key := by
  induction entries using List.reverseRecOn with
  | nil => rfl
  | append_singleton entries e ih =>
    rw [ofList_concat, lookup_insert, ih, List.reverse_append]
    exact (lookup_cons e.1 key e.2 entries.reverse).symm

/-- entries without a common key are the same in any order -/
theorem ofList_eq_of_perm {entries others : List (Text × α)} (h : entries.Perm others)
    (distinct : (entries.map Prod.fst).Nodup) : ofList entries = ofList others := by
  have hentries : (entries.reverse.map Prod.fst).Nodup :=
    ((List.reverse_perm entries).map Prod.fst).nodup_iff.mpr distinct
  have hothers : (others.reverse.map Prod.fst).Nodup :=
    (((List.reverse_perm others).trans h.symm).map Prod.fst).nodup_iff.mpr distinct
  refine (ascending_ofList entries).eq_of_lookup_eq (ascending_ofList others) fun key => ?_
  rw [lookup_ofList, lookup_ofList]
  apply Option.ext
  intro x
  rw [lookup_eq_some_iff_mem hentries, lookup_eq_some_iff_mem hothers, List.mem_reverse,
    List.mem_reverse]
  exact h.mem_iff
end Keyed

namespace TextMap

theorem get?_insert (m : TextMap) (key t other : Text) :
    (m.insert key t).get? other = if other = key then some t else m.get? other :=
  Keyed.lookup_insert key other t m.entries

theorem get?_erase (m : TextMap) (key other : Text) :
    (m.erase key).get? other = if other = key then none else m.get? other :=
  Keyed.lookup_erase key other m.entries

theorem ext_get? {m n : TextMap} (h : ∀ key, m.get? key = n.get? key) : m = n :=
  ext (m.ascending.eq_of_lookup_eq n.ascending h)

theorem erase_insert (m : TextMap) (key t : Text) : (m.insert key t).erase key = m.erase key := by
  apply ext_get?
  intro other
  rw [get?_erase, get?_erase, get?_insert]
  split <;> rfl

/-- the later text counts -/
theorem insert_insert (m : TextMap) (key old t : Text) :
    (m.insert key old).insert key t = m.insert key t := by
  apply ext_get?
  intro other
  rw [get?_insert, get?_insert, get?_insert]
  split <;> rfl

end TextMap
end VolumeClaim
