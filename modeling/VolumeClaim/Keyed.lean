import VolumeClaim.Text

/-!
# Lists of entries with ascending keys

A finite map with texts for keys is a list of entries whose keys ascend strictly, byte by byte.
`Keyed.insert` puts an entry in its place or replaces the entry with its key; `Keyed.erase`
leaves an entry out.  Both keep the keys ascending (`ascending_insert`, `ascending_erase`), and
sorting entries that ascend already changes nothing (`ofList_of_ascending`).
-/

namespace VolumeClaim.Keyed

section
variable {α : Type}

def Ascending (entries : List (Text × α)) : Prop := entries.Pairwise fun a b => a.1 < b.1

/-- puts an entry in its place; an entry with the same key is replaced -/
def insert (key : Text) (x : α) : List (Text × α) → List (Text × α)
  | [] => [(key, x)]
  | (k, y) :: rest =>
    if key < k then (key, x) :: (k, y) :: rest
    else if key = k then (key, x) :: rest
    else (k, y) :: insert key x rest

def erase (key : Text) (entries : List (Text × α)) : List (Text × α) :=
  entries.filter fun e => e.1 ≠ key

/-- the entries in ascending order; of several with one key the last one stays -/
def ofList (entries : List (Text × α)) : List (Text × α) :=
  entries.foldl (fun sorted e => insert e.1 e.2 sorted) []

theorem ascending_nil : Ascending ([] : List (Text × α)) := List.Pairwise.nil

theorem ascending_iff {entries : List (Text × α)} :
    Ascending entries ↔ (entries.map Prod.fst).Pairwise (· < ·) := List.pairwise_map.symm

theorem mem_insert {key : Text} {x : α} {e : Text × α} {entries : List (Text × α)}
    (h : e ∈ insert key x entries) : e = (key, x) ∨ e ∈ entries := by
  induction entries with
  | nil => simpa [insert] using h
  | cons head rest ih =>
    rw [insert] at h
    split at h
    · simpa using h
    · split at h
      · rcases List.mem_cons.mp h with h | h
        · exact .inl h
        · exact .inr (List.mem_cons_of_mem _ h)
      · rcases List.mem_cons.mp h with h | h
        · exact .inr (h ▸ List.mem_cons_self)
        · exact (ih h).imp_right (List.mem_cons_of_mem _)

theorem mem_of_mem_ofList {e : Text × α} {entries : List (Text × α)} (h : e ∈ ofList entries) :
    e ∈ entries := by
  suffices hs : ∀ sorted, e ∈ entries.foldl (fun sorted e => insert e.1 e.2 sorted) sorted →
      e ∈ sorted ∨ e ∈ entries from (hs [] h).elim (fun hn => absurd hn List.not_mem_nil) id
  clear h
  induction entries with
  | nil => exact fun _ h => .inl h
  | cons head rest ih =>
    intro sorted hmem
    rcases ih _ hmem with h | h
    · rcases mem_insert h with h | h
      · exact .inr (h ▸ List.mem_cons_self)
      · exact .inl h
    · exact .inr (List.mem_cons_of_mem _ h)

theorem ascending_insert (key : Text) (x : α) {entries : List (Text × α)}
    (h : Ascending entries) : Ascending (insert key x entries) := by
  induction entries with
  | nil => exact List.pairwise_singleton ..
  | cons head rest ih =>
    obtain ⟨hhead, hrest⟩ := List.pairwise_cons.mp h
    rw [insert]
    split
    · rename_i hlt
      refine List.pairwise_cons.mpr ⟨fun e he => ?_, h⟩
      rcases List.mem_cons.mp he with he | he
      · exact he ▸ hlt
      · exact List.lt_trans hlt (hhead e he)
    · rename_i hnlt
      split
      · rename_i heq
        exact List.pairwise_cons.mpr ⟨fun e he => heq ▸ hhead e he, hrest⟩
      · rename_i hne
        refine List.pairwise_cons.mpr ⟨fun e he => ?_, ih hrest⟩
        rcases mem_insert he with he | he
        · rw [he]
          rcases Std.lt_trichotomy key head.1 with hlt | heq | hgt
          · exact absurd hlt hnlt
          · exact absurd heq hne
          · exact hgt
        · exact hhead e he

theorem ascending_erase (key : Text) {entries : List (Text × α)} (h : Ascending entries) :
    Ascending (erase key entries) := List.Pairwise.filter _ h

theorem ascending_ofList (entries : List (Text × α)) : Ascending (ofList entries) := by
  suffices h : ∀ sorted, Ascending sorted →
      Ascending (entries.foldl (fun sorted e => insert e.1 e.2 sorted) sorted) from
    h [] ascending_nil
  induction entries with
  | nil => exact fun _ h => h
  | cons e entries ih => exact fun _ h => ih _ (ascending_insert _ _ h)

/-- an entry beyond all others is put at the end -/
theorem insert_of_forall_lt {key : Text} {x : α} {entries : List (Text × α)}
    (h : ∀ e ∈ entries, e.1 < key) : insert key x entries = entries ++ [(key, x)] := by
  induction entries with
  | nil => rfl
  | cons head rest ih =>
    have hlt := h head (by simp)
    rw [insert, if_neg (List.lt_asymm hlt), if_neg fun e => List.lt_irrefl _ (e ▸ hlt),
      ih fun e he => h e (List.mem_cons_of_mem _ he), List.cons_append]

/-- ascending entries stay as they are -/
theorem ofList_of_ascending {entries : List (Text × α)} (h : Ascending entries) :
    ofList entries = entries := by
  suffices e : ∀ sorted, Ascending (sorted ++ entries) →
      entries.foldl (fun sorted e => insert e.1 e.2 sorted) sorted = sorted ++ entries from
    e [] h
  clear h
  induction entries with
  | nil => simp
  | cons head rest ih =>
    intro sorted hs
    rw [List.foldl_cons, insert_of_forall_lt fun e he =>
      (List.pairwise_append.mp hs).2.2 e he head List.mem_cons_self, ih _ (by simpa using hs)]
    simp

end

/-- what is looked up is an entry, whatever the keys are -/
theorem mem_of_lookup_eq_some {κ α : Type} [BEq κ] [LawfulBEq κ] {entries : List (κ × α)}
    {key : κ} {x : α} (h : entries.lookup key = some x) : (key, x) ∈ entries := by
  obtain ⟨before, after, hentries, -⟩ := List.lookup_eq_some_iff.mp h
  rw [hentries]
  exact List.mem_append_right before List.mem_cons_self

/-- where no two entries have one key, an entry is what is looked up -/
theorem lookup_eq_some_iff_mem {κ α : Type} [BEq κ] [LawfulBEq κ] {entries : List (κ × α)}
    (distinct : (entries.map Prod.fst).Nodup) {key : κ} {x : α} :
    entries.lookup key = some x ↔ (key, x) ∈ entries := by
  refine ⟨mem_of_lookup_eq_some, fun h => ?_⟩
  induction entries with
  | nil => exact absurd h List.not_mem_nil
  | cons e entries ih =>
    rw [List.map_cons, List.nodup_cons] at distinct
    rcases List.mem_cons.mp h with rfl | h
    · exact List.lookup_cons_self
    · have hne : key ≠ e.1 := fun heq =>
        distinct.1 (List.mem_map.mpr ⟨(key, x), h, heq⟩)
      rw [List.lookup_cons, beq_false_of_ne hne]
      exact ih distinct.2 h

end VolumeClaim.Keyed
