import Mathlib.Logic.Function.Iterate
import VolumeClaim.Claim.LastApplied
import VolumeClaim.Claim.RoundTrip
import VolumeClaim.Proofs.TextMap

/-!
# What recording the applied configuration changes

Recording puts one annotation in place and changes nothing else, so a claim without the annotation
is the same before and after.

* `Claim.withoutLastApplied_recordLastApplied` for every claim;
* `Draft.annotations_recordLastApplied` the claim of a draft has no other annotation;
* `Claim.recordLastApplied_once_for_all` what is recorded, and that recording again changes nothing.
-/

namespace VolumeClaim

namespace Claim

theorem withoutLastApplied_recordLastApplied (c : Claim) :
    c.recordLastApplied.withoutLastApplied = c.withoutLastApplied := by
  show c.withAnnotations ((c.annotations.insert lastAppliedKey _).erase lastAppliedKey) =
    c.withAnnotations (c.annotations.erase lastAppliedKey)
  rw [TextMap.erase_insert]

theorem withoutLastApplied_inNamespace (c : Claim) (namespaceName : Text) :
    (c.inNamespace namespaceName).withoutLastApplied =
      c.withoutLastApplied.inNamespace namespaceName := rfl

/-! ## Recording again -/

/-- what is recorded does not depend on what was recorded before -/
theorem recordLastApplied_recordLastApplied (c : Claim) :
    c.recordLastApplied.recordLastApplied = c.recordLastApplied := by
  show c.withAnnotations ((c.annotations.insert lastAppliedKey c.withoutLastApplied.json).insert
      lastAppliedKey c.recordLastApplied.withoutLastApplied.json) =
    c.withAnnotations (c.annotations.insert lastAppliedKey c.withoutLastApplied.json)
  rw [withoutLastApplied_recordLastApplied, TextMap.insert_insert]

theorem iterate_recordLastApplied (c : Claim) (n : Nat) :
    recordLastApplied^[n + 1] c = c.recordLastApplied := by
  induction n with
  | zero => rfl
  | succ n ih => rw [Function.iterate_succ_apply', ih, recordLastApplied_recordLastApplied]

/-! ## What stays -/

/-- the other claim differs in nothing but what is noted under one key, and has metadata -/
structure SameBut (key : Text) (c other : Claim) : Prop where
  apiVersion : other.apiVersion = c.apiVersion
  kind : other.kind = c.kind
  metadata : other.metadata ≠ none
  name : other.name = c.name
  namespaceName : other.metadataOrEmpty.namespaceName = c.metadataOrEmpty.namespaceName
  annotations : ∀ k, k ≠ key → other.annotations.get? k = c.annotations.get? k
  spec : other.spec = c.spec

theorem sameBut_withAnnotations {key : Text} {c : Claim} {m : TextMap}
    (h : ∀ k, k ≠ key → m.get? k = c.annotations.get? k) : c.SameBut key (c.withAnnotations m) :=
  ⟨rfl, rfl, nofun, rfl, rfl, h, rfl⟩

theorem sameBut_recordLastApplied (c : Claim) : c.SameBut lastAppliedKey c.recordLastApplied := by
  refine sameBut_withAnnotations fun k hk => ?_
  rw [TextMap.get?_insert, if_neg hk]

theorem sameBut_withoutLastApplied (c : Claim) : c.SameBut lastAppliedKey c.withoutLastApplied := by
  refine sameBut_withAnnotations fun k hk => ?_
  rw [TextMap.get?_erase, if_neg hk]

theorem get?_withoutLastApplied (c : Claim) :
    c.withoutLastApplied.annotations.get? lastAppliedKey = none := by
  show (c.annotations.erase lastAppliedKey).get? lastAppliedKey = none
  rw [TextMap.get?_erase, if_pos rfl]

theorem get?_recordLastApplied (c : Claim) :
    c.recordLastApplied.annotations.get? lastAppliedKey = some c.withoutLastApplied.json := by
  show (c.annotations.insert lastAppliedKey _).get? lastAppliedKey = _
  rw [TextMap.get?_insert, if_pos rfl]

/-- **Recording is done once and for all**: however often it is repeated, the claim is that of the
first time.  Its text under the key reads back as the claim without a text under the key, and
nothing else about the claim has changed. -/
theorem recordLastApplied_once_for_all (c : Claim) :
    (∀ n, recordLastApplied^[n + 1] c = c.recordLastApplied) ∧
      (∃ t bare, c.recordLastApplied.annotations.get? lastAppliedKey = some t ∧
        ofJson t = .ok bare ∧ c.SameBut lastAppliedKey bare ∧
        bare.annotations.get? lastAppliedKey = none) ∧
      c.SameBut lastAppliedKey c.recordLastApplied := by
  refine ⟨c.iterate_recordLastApplied, ?_, c.sameBut_recordLastApplied⟩
  exact ⟨c.withoutLastApplied.json, c.withoutLastApplied, c.get?_recordLastApplied, ofJson_json _,
    c.sameBut_withoutLastApplied, c.get?_withoutLastApplied⟩

end Claim

namespace Draft

theorem withoutLastApplied_claim (d : Draft) : d.claim.withoutLastApplied = d.claim := rfl

theorem annotations_recordLastApplied (d : Draft) :
    d.claim.recordLastApplied.annotations.entries = [(Claim.lastAppliedKey, d.claim.json)] := rfl

end Draft
end VolumeClaim
