import VolumeClaim.Claim.LastApplied
import VolumeClaim.Proofs.Draft.Outcome
import VolumeClaim.Proofs.Quantity.CanonicalForm
import VolumeClaim.Proofs.Request.Check

/-!
# Sound claims

A sound claim asks for storage and for nothing else, in known access modes, with a limit above
the request if it has one, and the only note on it is its own text.

* `Claim.sound_of_draft`   the claim of a checked request is sound;
* `Claim.Sound.recordLastApplied`, `Claim.Sound.inNamespace` and stays so.
-/

namespace VolumeClaim
open Grammar

/-! ## Sound documents -/

/-- a request for storage, and a limit above it if there is one -/
def Resources.Sound (r : Resources) : Prop :=
  ∃ request x, r.requests.entries = [(ascii "storage", request)] ∧ Denotes request x ∧
    (r.limits.entries = [] ∨
      ∃ limit y, r.limits.entries = [(ascii "storage", limit)] ∧ Denotes limit y ∧ x < y)

structure ClaimSpec.Sound (s : ClaimSpec) : Prop where
  modes : ∀ t ∈ s.accessModes,
    t ∈ [ascii "ReadOnlyMany", ascii "ReadWriteMany", ascii "ReadWriteOnce"]
  resources : ∃ r, s.resources = some r ∧ r.Sound
  storageClass : s.storageClass ≠ some []

structure Claim.Sound (c : Claim) : Prop where
  apiVersion : c.apiVersion = ascii "v1"
  kind : c.kind = ascii "PersistentVolumeClaim"
  name : c.name ≠ []
  spec : ∃ s, c.spec = some s ∧ s.Sound
  annotations : ∀ e ∈ c.annotations.entries,
    e.1 = ascii "kubectl.kubernetes.io/last-applied-configuration"

theorem resources_sound_of_draft {r : Request} {enforce : Bool} {d : Draft}
    (h : r.draft enforce = .ok d) :
    (Resources.mk (amountTexts d.limits) (amountTexts d.requests)).Sound := by
  obtain ⟨request, limit, hrequest, hlimit, rfl⟩ := Request.draft_eq_ok_iff.mp h
  have hwritten := Quantity.denotes_toText (Quantity.wellFormed_of_parse hrequest)
  refine ⟨request.toText, request.value, rfl, hwritten, ?_⟩
  rcases Request.limit_eq_ok_iff.mp hlimit with ⟨-, rfl⟩ | ⟨-, l, hl, hle, rfl⟩
  · exact .inl rfl
  · have hlt : request.value < l.value := by
      rw [← not_le, ← Request.le_iff_of_parse hl hrequest, hle]
      exact Bool.false_ne_true
    exact .inr ⟨l.toText, l.value, rfl, Quantity.denotes_toText (Quantity.wellFormed_of_parse hl),
      hlt⟩

namespace Claim

theorem sound_of_draft {r : Request} {enforce : Bool} {d : Draft} (hcheck : r.check = .ok ())
    (h : r.draft enforce = .ok d) : d.claim.Sound := by
  obtain ⟨hname, -, -⟩ := Request.check_eq_ok_iff.mp hcheck
  have hresources := resources_sound_of_draft h
  have hfills := Request.fills_of_draft h
  constructor
  case apiVersion => exact hfills.apiVersion
  case kind => exact hfills.kind
  case name =>
    show d.name ≠ []
    rw [hfills.name]
    exact hname
  case spec =>
    have hmodes := (Request.modesOf_draft hcheck h).known
    exact ⟨_, rfl, hmodes, ⟨_, rfl, hresources⟩,
      fun hclass => ((hfills.storageClass []).mp hclass).2 rfl⟩
  case annotations => exact fun e he => absurd he List.not_mem_nil

theorem Sound.withAnnotations {c : Claim} (h : c.Sound) {m : TextMap} (hm : ∀ e ∈ m.entries,
    e.1 = ascii "kubectl.kubernetes.io/last-applied-configuration") :
    (c.withAnnotations m).Sound :=
  ⟨h.apiVersion, h.kind, h.name, h.spec, hm⟩

theorem Sound.recordLastApplied {c : Claim} (h : c.Sound) : c.recordLastApplied.Sound := by
  refine h.withAnnotations fun e he => ?_
  rcases Keyed.mem_insert he with rfl | he
  · rfl
  · exact h.annotations e he

theorem Sound.inNamespace {c : Claim} (h : c.Sound) (namespaceName : Text) :
    (c.inNamespace namespaceName).Sound :=
  ⟨h.apiVersion, h.kind, h.name, h.spec, h.annotations⟩

end Claim
end VolumeClaim
