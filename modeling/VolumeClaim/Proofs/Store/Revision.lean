import VolumeClaim.Proofs.Store.Course

/-!
# Changing what is stored

A store with a change to the claim under one namespace and name, all else as it was.  It is what
the store would be if the changed claim had been put there in the first place.

* `Store.revise_insert`    changing what was just added.
-/

namespace VolumeClaim

namespace Keyed
variable {κ α : Type} [BEq κ] [LawfulBEq κ]

/-- the entries with a change to what is under the key -/
def modify (key : κ) (f : α → α) (entries : List (κ × α)) : List (κ × α) :=
  entries.map fun e => if e.1 == key then (e.1, f e.2) else e

theorem modify_concat {key : κ} {entries : List (κ × α)} (h : entries.lookup key = none)
    (f : α → α) (x : α) :
    modify key f (entries ++ [(key, x)]) = entries ++ [(key, f x)] := by
  have hkept : ∀ e ∈ entries, (if e.1 == key then (e.1, f e.2) else e) = e := by
    intro e he
    have hne : key ≠ e.1 := bne_iff_ne.mp (List.lookup_eq_none_iff.mp h e he)
    rw [if_neg (mt eq_of_beq hne.symm)]
  unfold modify
  rw [List.map_append, List.map_congr_left hkept, List.map_id', List.map_singleton,
    if_pos (beq_self_eq_true key)]

end Keyed

/-- the text of a file with a change to the claim in it; a file that holds none stays as it is -/
def Claim.reviseText (f : Claim → Claim) (contents : Text) : Text :=
  match ofJson contents with
  | .ok c => (f c).json
  | .error _ => contents

theorem Claim.reviseText_json (f : Claim → Claim) (c : Claim) :
    reviseText f c.json = (f c).json := by
  unfold reviseText
  rw [ofJson_json]

def MemoryStore.revise (m : MemoryStore) (namespaceName name : Text) (f : Claim → Claim) :
    MemoryStore :=
  ⟨Keyed.modify (key namespaceName name) f m.claims⟩

def DiskStore.revise (d : DiskStore) (namespaceName name : Text) (f : Claim → Claim) : DiskStore :=
  let place := Location.ofClaim d.root namespaceName name
  { d with tree := { d.tree with files := Keyed.modify place (Claim.reviseText f) d.tree.files } }

/-- the store with a change to the claim under a namespace and name -/
def Store.revise (s : Store) (namespaceName name : Text) (f : Claim → Claim) : Store :=
  match s with
  | .memory m => .memory (m.revise namespaceName name f)
  | .disk d => .disk (d.revise namespaceName name f)

theorem Store.revise_insert {s : Store} {namespaceName : Text} {c : Claim}
    (h : s.IsVacant namespaceName c.name) {f : Claim → Claim} (hf : (f c).name = c.name) :
    (s.insert namespaceName c).revise namespaceName c.name f = s.insert namespaceName (f c) := by
  cases s with
  | memory m =>
    show Store.memory ⟨Keyed.modify _ f (m.claims ++ [(_, c)])⟩ = .memory ⟨m.claims ++ [(_, f c)]⟩
    rw [Keyed.modify_concat h, hf]
  | disk d =>
    show Store.disk ⟨d.root, ⟨d.tree.directories,
        Keyed.modify (.ofClaim d.root namespaceName c.name) (Claim.reviseText f)
          (d.tree.files ++ [(.ofClaim d.root namespaceName c.name, c.json)])⟩⟩ =
      .disk ⟨d.root, ⟨d.tree.directories, d.tree.files ++ [(_, (f c).json)]⟩⟩
    rw [Keyed.modify_concat h, Claim.reviseText_json, hf]

end VolumeClaim
