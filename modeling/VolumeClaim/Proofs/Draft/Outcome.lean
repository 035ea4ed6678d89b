import VolumeClaim.Proofs.Draft
import VolumeClaim.Proofs.Quantity.Comparison

/-!
# What comes of a request

A request has a draft if its amount of storage is a quantity, and so is its limit, if it has one,
with a greater number.  `Refused` lists the faults in the order in which they are found, `Fills`
says what stands in the draft.

* `exists_draft_iff`       when there is a draft;
* `draft_eq_error_iff_refused` why there is none;
* `fills_of_draft`         and what it holds.
-/

namespace VolumeClaim.Request
open Text

/-- the fault of a request without a draft -/
inductive Refused (r : Request) : Draft.Fault → Prop where
  | request {e : Quantity.LiteralError} (request : Quantity.parse r.storageRequest = .error e) :
    Refused r (.badLiteral e)
  | limit {q : Quantity} {e : Quantity.LiteralError}
    (request : Quantity.parse r.storageRequest = .ok q) (given : r.storageLimit ≠ [])
    (limit : Quantity.parse r.storageLimit = .error e) : Refused r (.badLiteral e)
  | order {q l : Quantity} (request : Quantity.parse r.storageRequest = .ok q)
    (given : r.storageLimit ≠ []) (limit : Quantity.parse r.storageLimit = .ok l)
    (le : l.value ≤ q.value) : Refused r .limitTooSmall

/-- the draft of a request, field by field -/
structure Fills (r : Request) (enforce : Bool) (d : Draft) : Prop where
  apiVersion : d.apiVersion = ascii "v1"
  kind : d.kind = ascii "PersistentVolumeClaim"
  name : d.name = r.name
  namespaceName : d.namespaceName = if enforce then r.namespaceName else []
  requests : ∃ q, Quantity.parse r.storageRequest = .ok q ∧ d.requests = [(ascii "storage", q)]
  no_limits : r.storageLimit = [] → d.limits = []
  limits : r.storageLimit ≠ [] →
    ∃ l, Quantity.parse r.storageLimit = .ok l ∧ d.limits = [(ascii "storage", l)]
  no_modes : r.accessModes = [] → d.accessModes = []
  modes : r.accessModes ≠ [] → ∀ tokens, tokens = d.accessModes ↔
    tokens ≠ [] ∧ (∀ t ∈ tokens, byte ',' ∉ t) ∧ join (byte ',') tokens = r.accessModes
  storageClass : ∀ t, d.storageClass = some t ↔ t = r.storageClass ∧ t ≠ []

/-- the order of quantities that were read is that of their numbers -/
theorem le_iff_of_parse {ra rb : Text} {a b : Quantity} (ha : Quantity.parse ra = .ok a)
    (hb : Quantity.parse rb = .ok b) : a.le b = true ↔ a.value ≤ b.value :=
  Quantity.le_iff (Quantity.wellFormed_of_parse ha) (Quantity.wellFormed_of_parse hb)

theorem exists_limit_iff {r : Request} {request : Quantity}
    (hq : Quantity.parse r.storageRequest = .ok request) :
    (∃ limit, r.limit request = .ok limit) ↔ r.storageLimit = [] ∨
      ∃ l, Quantity.parse r.storageLimit = .ok l ∧ request.value < l.value := by
  constructor
  · rintro ⟨limit, h⟩
    rcases limit_eq_ok_iff.mp h with ⟨hnil, -⟩ | ⟨-, l, hl, hle, -⟩
    · exact .inl hnil
    · rw [← Bool.not_eq_true, le_iff_of_parse hl hq, not_le] at hle
      exact .inr ⟨l, hl, hle⟩
  · intro h
    by_cases hnil : r.storageLimit = []
    · exact ⟨none, limit_eq_ok_iff.mpr (.inl ⟨hnil, rfl⟩)⟩
    · obtain ⟨l, hl, hlt⟩ := h.resolve_left hnil
      rw [← not_le, ← le_iff_of_parse hl hq, Bool.not_eq_true] at hlt
      exact ⟨some l, limit_eq_ok_iff.mpr (.inr ⟨hnil, l, hl, hlt, rfl⟩)⟩

section
variable {r : Request} {enforce : Bool}

theorem exists_draft_iff : (∃ d, r.draft enforce = .ok d) ↔
    ∃ request, Quantity.parse r.storageRequest = .ok request ∧ (r.storageLimit = [] ∨
      ∃ l, Quantity.parse r.storageLimit = .ok l ∧ request.value < l.value) := by
  constructor
  · rintro ⟨d, h⟩
    obtain ⟨request, limit, hrequest, hlimit, -⟩ := draft_eq_ok_iff.mp h
    exact ⟨request, hrequest, (exists_limit_iff hrequest).mp ⟨limit, hlimit⟩⟩
  · rintro ⟨request, hrequest, h⟩
    obtain ⟨limit, hlimit⟩ := (exists_limit_iff hrequest).mpr h
    exact ⟨_, draft_eq_ok_iff.mpr ⟨request, limit, hrequest, hlimit, rfl⟩⟩

theorem draft_eq_error_iff_refused {fault : Draft.Fault} :
    r.draft enforce = .error fault ↔ r.Refused fault := by
  rw [draft_eq_error_iff]
  constructor
  · rintro (⟨e, hrequest, rfl⟩ | ⟨request, hrequest, hlimit⟩)
    · exact .request hrequest
    · obtain ⟨hgiven, ⟨e, hl, rfl⟩ | ⟨l, hl, hle, rfl⟩⟩ := limit_eq_error_iff.mp hlimit
      · exact .limit hrequest hgiven hl
      · exact .order hrequest hgiven hl ((le_iff_of_parse hl hrequest).mp hle)
  · intro h
    cases h with
    | request hrequest => exact .inl ⟨_, hrequest, rfl⟩
    | limit hrequest hgiven hl =>
      exact .inr ⟨_, hrequest, limit_eq_error_iff.mpr ⟨hgiven, .inl ⟨_, hl, rfl⟩⟩⟩
    | order hrequest hgiven hl hle =>
      have hle := (le_iff_of_parse hl hrequest).mpr hle
      exact .inr ⟨_, hrequest, limit_eq_error_iff.mpr ⟨hgiven, .inr ⟨_, hl, hle, rfl⟩⟩⟩

theorem fills_of_draft {d : Draft} (h : r.draft enforce = .ok d) : r.Fills enforce d := by
  obtain ⟨request, limit, hrequest, hlimit, rfl⟩ := draft_eq_ok_iff.mp h
  have hlimit := limit_eq_ok_iff.mp hlimit
  constructor
  case apiVersion => rfl
  case kind => rfl
  case name => rfl
  case namespaceName => rfl
  case requests => exact ⟨request, hrequest, rfl⟩
  case no_limits =>
    intro hnil
    rcases hlimit with ⟨-, rfl⟩ | ⟨hgiven, -⟩
    · rfl
    · exact absurd hnil hgiven
  case limits =>
    intro hgiven
    rcases hlimit with ⟨hnil, -⟩ | ⟨-, l, hl, -, rfl⟩
    · exact absurd hnil hgiven
    · exact ⟨l, hl, rfl⟩
  case no_modes => exact fun hnil => if_pos hnil
  case modes =>
    intro hgiven tokens
    have hmodes : r.modeTokens = split (byte ',') r.accessModes := if_neg hgiven
    show tokens = r.modeTokens ↔ _
    rw [hmodes]
    exact eq_split_iff (byte ',')
  case storageClass =>
    intro t
    show (if r.storageClass = [] then none else some r.storageClass) = some t ↔ _
    by_cases hnil : r.storageClass = []
    · rw [if_pos hnil, hnil]
      exact ⟨nofun, fun ⟨ht, hne⟩ => absurd ht hne⟩
    · rw [if_neg hnil, Option.some_inj]
      exact ⟨fun ht => ⟨ht.symm, ht ▸ hnil⟩, fun ⟨ht, _⟩ => ht.symm⟩

end

/-- **A request has a draft exactly if its amounts are read and the limit is the greater one; the
fault that comes first is reported, and the draft holds what was asked for.** -/
theorem draft_outcome (r : Request) (enforce : Bool) :
    ((∃ d, r.draft enforce = .ok d) ↔
      ∃ request, Quantity.parse r.storageRequest = .ok request ∧ (r.storageLimit = [] ∨
        ∃ l, Quantity.parse r.storageLimit = .ok l ∧ request.value < l.value)) ∧
      (∀ fault, r.draft enforce = .error fault ↔ r.Refused fault) ∧
      (∀ e : Quantity.LiteralError, (Draft.Fault.badLiteral e).message = e.message) ∧
      Draft.Fault.limitTooSmall.message =
        ascii "resource limit is the same/less than the resource request" ∧
      (∀ d, r.draft enforce = .ok d → r.Fills enforce d) :=
  ⟨exists_draft_iff, fun _ => draft_eq_error_iff_refused, fun _ => rfl, rfl,
    fun _ => fills_of_draft⟩

example : { Request.empty with storageRequest := ascii "1Gi", storageLimit := ascii "1024Mi" }.draft
    false = .error .limitTooSmall := rfl

end VolumeClaim.Request
