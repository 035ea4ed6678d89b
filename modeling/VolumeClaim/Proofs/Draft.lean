import VolumeClaim.Draft
import VolumeClaim.Proofs.Except

/-!
# What a draft is made of

* `Request.limit_eq_ok_iff`, `limit_eq_error_iff` no limit, or one that was read and is greater
  than the request;
* `Request.draft_eq_ok_iff`, `draft_eq_error_iff` both amounts were read, and everything else is
  carried over;
* `Request.read_of_draft`  no amount of a draft was made up.
-/

namespace VolumeClaim

def Draft.quantities (d : Draft) : List Quantity :=
  (d.limits ++ d.requests).map Prod.snd

/-- every amount of the draft was read from some text -/
def Draft.Read (d : Draft) : Prop :=
  ∀ q ∈ d.quantities, ∃ raw, Quantity.parse raw = .ok q

namespace Request

theorem amount_eq_ok_iff {raw : Text} {q : Quantity} :
    amount raw = .ok q ↔ Quantity.parse raw = .ok q := mapError_eq_ok_iff

theorem amount_eq_error_iff {raw : Text} {fault : Draft.Fault} :
    amount raw = .error fault ↔ ∃ e, Quantity.parse raw = .error e ∧ fault = .badLiteral e :=
  mapError_eq_error_iff

theorem limit_eq_ok_iff {r : Request} {request : Quantity} {l : Option Quantity} :
    r.limit request = .ok l ↔ (r.storageLimit = [] ∧ l = none) ∨
      (r.storageLimit ≠ [] ∧ ∃ q, Quantity.parse r.storageLimit = .ok q ∧
        q.le request = false ∧ l = some q) := by
  unfold limit
  by_cases hl : r.storageLimit = []
  · rw [if_pos hl]
    constructor
    · intro h
      cases h
      exact .inl ⟨hl, rfl⟩
    · rintro (⟨-, rfl⟩ | ⟨hne, -⟩)
      · rfl
      · exact absurd hl hne
  · rw [if_neg hl, bind_eq_ok_iff]
    constructor
    · rintro ⟨q, hq, h⟩
      cases hle : q.le request with
      | true =>
        rw [hle, if_pos rfl] at h
        cases h
      | false =>
        rw [hle, if_neg Bool.false_ne_true] at h
        cases h
        exact .inr ⟨hl, q, amount_eq_ok_iff.mp hq, hle, rfl⟩
    · rintro (⟨hnil, -⟩ | ⟨-, q, hq, hle, rfl⟩)
      · exact absurd hnil hl
      · refine ⟨q, amount_eq_ok_iff.mpr hq, ?_⟩
        rw [hle, if_neg Bool.false_ne_true]

theorem limit_eq_error_iff {r : Request} {request : Quantity} {fault : Draft.Fault} :
    r.limit request = .error fault ↔ r.storageLimit ≠ [] ∧
      ((∃ e, Quantity.parse r.storageLimit = .error e ∧ fault = .badLiteral e) ∨
        ∃ q, Quantity.parse r.storageLimit = .ok q ∧ q.le request = true ∧
          fault = .limitTooSmall) := by
  unfold limit
  by_cases hl : r.storageLimit = []
  · rw [if_pos hl]
    constructor
    · intro h
      cases h
    · rintro ⟨hne, -⟩
      exact absurd hl hne
  · rw [if_neg hl, bind_eq_error_iff, amount_eq_error_iff]
    constructor
    · rintro (he | ⟨q, hq, h⟩)
      · exact ⟨hl, .inl he⟩
      · cases hle : q.le request with
        | true =>
          rw [hle, if_pos rfl] at h
          cases h
          exact ⟨hl, .inr ⟨q, amount_eq_ok_iff.mp hq, hle, rfl⟩⟩
        | false =>
          rw [hle, if_neg Bool.false_ne_true] at h
          cases h
    · rintro ⟨-, he | ⟨q, hq, hle, rfl⟩⟩
      · exact .inl he
      · refine .inr ⟨q, amount_eq_ok_iff.mpr hq, ?_⟩
        rw [hle, if_pos rfl]

theorem draft_eq_ok_iff {r : Request} {enforce : Bool} {d : Draft} :
    r.draft enforce = .ok d ↔ ∃ request limit,
      Quantity.parse r.storageRequest = .ok request ∧ r.limit request = .ok limit ∧
      d = {
        apiVersion := Draft.currentVersion
        kind := Draft.claimKind
        name := r.name
        namespaceName := if enforce then r.namespaceName else []
        requests := [(Draft.storage, request)]
        limits := (limit.map fun q => (Draft.storage, q)).toList
        accessModes := r.modeTokens
        storageClass := if r.storageClass = [] then none else some r.storageClass } := by
  unfold draft
  rw [bind_eq_ok_iff]
  refine exists_congr fun request => ?_
  rw [bind_eq_ok_iff, amount_eq_ok_iff, ← exists_and_left]
  refine exists_congr fun limit => and_congr_right fun _ => and_congr_right fun _ => ?_
  constructor
  · intro h
    cases h
    rfl
  · rintro rfl
    rfl

/-- the request is read first, and nothing fails after the limit -/
theorem draft_eq_error_iff {r : Request} {enforce : Bool} {fault : Draft.Fault} :
    r.draft enforce = .error fault ↔
      (∃ e, Quantity.parse r.storageRequest = .error e ∧ fault = .badLiteral e) ∨
        ∃ request, Quantity.parse r.storageRequest = .ok request ∧
          r.limit request = .error fault := by
  unfold draft
  rw [bind_eq_error_iff, amount_eq_error_iff]
  refine or_congr_right (exists_congr fun request => ?_)
  rw [amount_eq_ok_iff, bind_eq_error_iff]
  refine and_congr_right fun _ => ?_
  constructor
  · rintro (h | ⟨l, -, h⟩)
    · exact h
    · cases h
  · exact .inl

theorem read_of_draft {r : Request} {enforce : Bool} {d : Draft} (h : r.draft enforce = .ok d) :
    d.Read := by
  obtain ⟨request, limit, hrequest, hlimit, rfl⟩ := draft_eq_ok_iff.mp h
  intro q hq
  rcases limit_eq_ok_iff.mp hlimit with ⟨-, rfl⟩ | ⟨-, l, hl, -, rfl⟩
  · obtain rfl : q = request := by simpa [Draft.quantities] using hq
    exact ⟨_, hrequest⟩
  · have hq : q = l ∨ q = request := by simpa [Draft.quantities] using hq
    rcases hq with rfl | rfl
    · exact ⟨_, hl⟩
    · exact ⟨_, hrequest⟩

end Request
end VolumeClaim
