import VolumeClaim.Proofs.Store.Creation

/-!
# What a store holds

A store in memory holds the claims of its list, a store on disk those that can be read from the
files at its root and below.  A claim gets in only by being submitted for good, and what gets in
is what was answered.

* `Store.holds_of_get`     only what is held can be looked up;
* `Store.holds_create`     the store holds what it held, and the answer if that is for good.
-/

namespace VolumeClaim

namespace MemoryStore

def Holds (m : MemoryStore) (c : Claim) : Prop := ∃ key, (key, c) ∈ m.claims

theorem holds_of_get? {m : MemoryStore} {namespaceName name : Text} {c : Claim}
    (h : m.get? namespaceName name = some c) : m.Holds c :=
  ⟨key namespaceName name, Keyed.mem_of_lookup_eq_some h⟩

theorem holds_append (m : MemoryStore) (key : Text) (c x : Claim) :
    Holds ⟨m.claims ++ [(key, c)]⟩ x ↔ m.Holds x ∨ x = c := by
  constructor
  · rintro ⟨k, hmem⟩
    rcases List.mem_append.mp hmem with hmem | hmem
    · exact .inl ⟨k, hmem⟩
    · exact .inr (Prod.mk.inj (List.mem_singleton.mp hmem)).2
  · rintro (⟨k, hmem⟩ | rfl)
    · exact ⟨k, List.mem_append_left _ hmem⟩
    · exact ⟨key, List.mem_append_right _ List.mem_cons_self⟩

end MemoryStore

namespace DiskStore

/-- a file at the root or below it reads as the claim -/
def Holds (d : DiskStore) (c : Claim) : Prop :=
  ∃ l contents, (l, contents) ∈ d.tree.files ∧ l.IsWithin (.ofPath d.root) ∧
    Claim.ofJson contents = .ok c

theorem holds_of_get {d : DiskStore} {namespaceName name : Text} {c : Claim}
    (h : d.get namespaceName name = .ok (some c)) : d.Holds c := by
  obtain ⟨path, l, contents, hpath, hfind, hcontents, hclaim⟩ := get_eq_some h
  refine ⟨l, contents, FileTree.mem_files_of_contents? hcontents, ?_, hclaim⟩
  rw [(FileTree.eq_of_find? hfind).1, Location.ofPath_of_claimPath hpath]
  split
  · exact Location.isWithin_self _
  · exact Location.isWithin_ofClaim _ _ _

section
variable {d d' : DiskStore} (root : d'.root = d.root)
include root

theorem holds_of_files_eq (files : d'.tree.files = d.tree.files) (x : Claim) :
    d'.Holds x ↔ d.Holds x := by
  unfold Holds
  rw [root, files]

theorem holds_write {l : Location} {c : Claim} (hl : l.IsWithin (.ofPath d.root))
    (files : d'.tree.files = d.tree.files ++ [(l, c.json)]) (x : Claim) :
    d'.Holds x ↔ d.Holds x ∨ x = c := by
  unfold Holds
  rw [root, files]
  constructor
  · rintro ⟨place, contents, hmem, hplace, hx⟩
    rcases List.mem_append.mp hmem with hmem | hmem
    · exact .inl ⟨place, contents, hmem, hplace, hx⟩
    · obtain ⟨rfl, rfl⟩ := Prod.mk.inj (List.mem_singleton.mp hmem)
      rw [Claim.ofJson_json] at hx
      exact .inr (Except.ok.inj hx).symm
  · rintro (⟨place, contents, hmem, hplace, hx⟩ | rfl)
    · exact ⟨place, contents, List.mem_append_left _ hmem, hplace, hx⟩
    · exact ⟨l, x.json, List.mem_append_right _ List.mem_cons_self, hl, x.ofJson_json⟩

end

end DiskStore

namespace Store

/-- the store has the claim, under whatever name -/
def Holds (s : Store) (c : Claim) : Prop :=
  match s with
  | .memory m => m.Holds c
  | .disk d => d.Holds c

theorem not_holds_empty (c : Claim) : ¬ (Store.memory .empty).Holds c := by
  rintro ⟨key, h⟩
  exact List.not_mem_nil h

/-- a root with no file at it or below -/
theorem not_holds_of_forall_not_isWithin {d : DiskStore}
    (h : ∀ e ∈ d.tree.files, ¬ e.1.IsWithin (.ofPath d.root)) (c : Claim) :
    ¬ (Store.disk d).Holds c := by
  rintro ⟨l, contents, hmem, hl, -⟩
  exact h _ hmem hl

theorem holds_of_get {s : Store} {namespaceName name : Text} {c : Claim}
    (h : s.get namespaceName name = .ok (some c)) : s.Holds c := by
  cases s with
  | memory m => exact MemoryStore.holds_of_get? (Except.ok.inj h)
  | disk d => exact DiskStore.holds_of_get h

theorem Same.holds_iff {s s' : Store} (h : s.Same s') (x : Claim) : s'.Holds x ↔ s.Holds x := by
  cases h with
  | memory m => exact Iff.rfl
  | disk root files => exact DiskStore.holds_of_files_eq root files x

theorem Adds.holds_iff {s s' : Store} {namespaceName : Text} {c : Claim}
    (h : Adds namespaceName c s s') (x : Claim) : s'.Holds x ↔ s.Holds x ∨ x = c := by
  cases h with
  | @memory m vacant => exact m.holds_append _ c x
  | disk root vacant files =>
    exact DiskStore.holds_write root (Location.isWithin_ofClaim _ _ _) files x

theorem holds_create {s : Store} {namespaceName : Text} {c : Claim} {checkOnly : Bool}
    (x : Claim) : (s.create namespaceName c checkOnly).2.Holds x ↔
    s.Holds x ∨ checkOnly = false ∧ (s.create namespaceName c checkOnly).1 = .ok x := by
  have hcreation := s.creation_create namespaceName c checkOnly
  generalize s.create namespaceName c checkOnly = p at hcreation
  cases hcreation with
  | refused same => simpa using same.holds_iff x
  | checked check => simp [check]
  | added check adds get =>
    rw [adds.holds_iff x, Except.ok.injEq]
    exact or_congr_right ⟨fun h => ⟨check, h.symm⟩, fun h => h.2.symm⟩

end Store
end VolumeClaim
