import VolumeClaim.Claim.RoundTrip
import VolumeClaim.Proofs.Draft
import VolumeClaim.Proofs.Quantity.CanonicalForm

/-!
# Requests with the same claim

On the way from a request to its claim the amounts lose their spelling, and nothing else is lost:
the access modes are the parts of their text, a text that was not given leaves no field, and the
document leaves out only what is empty.

* `Claim.document_inj`     a document is that of one claim;
* `Request.claim_eq_iff_agree` one claim for requests that agree, their amounts in canonical text;
* `Request.claim_loses_spelling_only` the same with the numbers of the amounts.
-/

namespace VolumeClaim
open Text

theorem Claim.document_inj {c other : Claim} : c.document = other.document ↔ c = other := by
  constructor
  · intro h
    have hread := congrArg ofDocument? h
    rwa [ofDocument?_document, ofDocument?_document, Option.some_inj] at hread
  · rintro rfl
    rfl

/-! ## The fields of a claim -/

/-- of an amount that may not be there, the claim shows the canonical text -/
theorem amountTexts_inj {resource : Text} {l l' : Option Quantity} :
    amountTexts (l.map fun q => (resource, q)).toList =
        amountTexts (l'.map fun q => (resource, q)).toList ↔
      l.map Quantity.toText = l'.map Quantity.toText := by
  have hentries (x : Option Quantity) : (amountTexts (x.map fun q => (resource, q)).toList).entries =
      (x.map fun q => (resource, q.toText)).toList := by
    cases x <;> rfl
  constructor
  · intro h
    have hlist := congrArg TextMap.entries h
    rw [hentries, hentries] at hlist
    cases l <;> cases l' <;> simp_all
  · intro h
    apply TextMap.ext
    rw [hentries, hentries]
    cases l <;> cases l' <;> simp_all

namespace Request

theorem join_modeTokens (r : Request) : join (byte ',') r.modeTokens = r.accessModes := by
  unfold modeTokens
  split
  · rename_i h
    rw [h]
    rfl
  · exact ((eq_split_iff (byte ',')).mp rfl).2.2

theorem modeTokens_inj {r other : Request} :
    r.modeTokens = other.modeTokens ↔ r.accessModes = other.accessModes := by
  constructor
  · intro h
    rw [← r.join_modeTokens, h, other.join_modeTokens]
  · intro h
    unfold modeTokens
    rw [h]

/-- a text that leaves no field is the empty one -/
theorem given_inj {t t' : Text} :
    ((if t = [] then none else some t) = if t' = [] then none else some t') ↔ t = t' := by
  by_cases h : t = [] <;> by_cases h' : t' = [] <;> simp [h, h', eq_comm]

theorem enforced_inj {enforce : Bool} {t t' : Text} :
    ((if enforce then t else []) = if enforce then t' else []) ↔ (enforce = true → t = t') := by
  cases enforce <;> simp

/-! ## Requests that agree -/

/-- both texts are quantities, and the quantities are related -/
def SameAmount (same : Quantity → Quantity → Prop) (t t' : Text) : Prop :=
  ∃ q q', Quantity.parse t = .ok q ∧ Quantity.parse t' = .ok q' ∧ same q q'

/-- the requests ask for the same, their amounts compared as quantities; the namespace counts only
if it is enforced -/
structure Agree (same : Quantity → Quantity → Prop) (enforce : Bool) (r other : Request) :
    Prop where
  name : r.name = other.name
  accessModes : r.accessModes = other.accessModes
  storageClass : r.storageClass = other.storageClass
  namespaceName : enforce = true → r.namespaceName = other.namespaceName
  storageRequest : SameAmount same r.storageRequest other.storageRequest
  limited : r.storageLimit = [] ↔ other.storageLimit = []
  storageLimit : r.storageLimit ≠ [] → SameAmount same r.storageLimit other.storageLimit

section
variable {same finer : Quantity → Quantity → Prop}

theorem sameAmount_iff {t t' : Text} {q q' : Quantity} (ht : Quantity.parse t = .ok q)
    (ht' : Quantity.parse t' = .ok q') : SameAmount same t t' ↔ same q q' := by
  constructor
  · rintro ⟨a, b, ha, hb, hsame⟩
    cases ht.symm.trans ha
    cases ht'.symm.trans hb
    exact hsame
  · exact fun hsame => ⟨q, q', ht, ht', hsame⟩

variable (hfiner : ∀ q q' : Quantity, q.WellFormed → q'.WellFormed → finer q q' → same q q')
include hfiner

theorem SameAmount.mono {t t' : Text} (h : SameAmount finer t t') : SameAmount same t t' := by
  obtain ⟨q, q', ht, ht', hsame⟩ := h
  exact ⟨q, q', ht, ht', hfiner q q' (Quantity.wellFormed_of_parse ht)
    (Quantity.wellFormed_of_parse ht') hsame⟩

theorem Agree.mono {enforce : Bool} {r other : Request} (h : Agree finer enforce r other) :
    Agree same enforce r other :=
  ⟨h.name, h.accessModes, h.storageClass, h.namespaceName, h.storageRequest.mono hfiner, h.limited,
    fun hgiven => (h.storageLimit hgiven).mono hfiner⟩

end

theorem limit_toText_eq_iff {r other : Request} {q q' : Quantity} {l l' : Option Quantity}
    (hl : r.limit q = .ok l) (hl' : other.limit q' = .ok l') :
    l.map Quantity.toText = l'.map Quantity.toText ↔
      (r.storageLimit = [] ↔ other.storageLimit = []) ∧ (r.storageLimit ≠ [] →
        SameAmount (fun a b => a.toText = b.toText) r.storageLimit other.storageLimit) := by
  rcases limit_eq_ok_iff.mp hl with ⟨hnil, rfl⟩ | ⟨hgiven, a, ha, -, rfl⟩
  · rcases limit_eq_ok_iff.mp hl' with ⟨hnil', rfl⟩ | ⟨hgiven', b, -, -, rfl⟩
    · simp [hnil, hnil']
    · simp [hnil, hgiven']
  · rcases limit_eq_ok_iff.mp hl' with ⟨hnil', rfl⟩ | ⟨hgiven', b, hb, -, rfl⟩
    · simp [hgiven, hnil']
    · simp [hgiven, hgiven', sameAmount_iff ha hb]

section
variable {r other : Request} {enforce : Bool} {d d' : Draft} (h : r.draft enforce = .ok d)
  (h' : other.draft enforce = .ok d')
include h h'

theorem claim_eq_iff_agree :
    d.claim = d'.claim ↔ Agree (fun a b => a.toText = b.toText) enforce r other := by
  obtain ⟨q, l, hq, hl, rfl⟩ := draft_eq_ok_iff.mp h
  obtain ⟨q', l', hq', hl', rfl⟩ := draft_eq_ok_iff.mp h'
  have hrequest : amountTexts [(Draft.storage, q)] = amountTexts [(Draft.storage, q')] ↔
      SameAmount (fun a b => a.toText = b.toText) r.storageRequest other.storageRequest := by
    show amountTexts ((some q).map fun q => (Draft.storage, q)).toList =
      amountTexts ((some q').map fun q => (Draft.storage, q)).toList ↔ _
    rw [amountTexts_inj, sameAmount_iff hq hq']
    exact Option.some_inj
  simp only [Draft.claim, Metadata.empty, Claim.mk.injEq, Metadata.mk.injEq, ClaimSpec.mk.injEq,
    Resources.mk.injEq, Option.some_inj, true_and, and_true, modeTokens_inj, given_inj, enforced_inj,
    amountTexts_inj, limit_toText_eq_iff hl hl', hrequest]
  constructor
  · rintro ⟨⟨hname, hspace⟩, hmodes, ⟨⟨hlimited, hlimit⟩, hamount⟩, hclass⟩
    exact ⟨hname, hmodes, hclass, hspace, hamount, hlimited, hlimit⟩
  · rintro ⟨hname, hmodes, hclass, hspace, hamount, hlimited, hlimit⟩
    exact ⟨⟨hname, hspace⟩, hmodes, ⟨⟨hlimited, hlimit⟩, hamount⟩, hclass⟩

/-- **The document of a claim tells everything about the request but how its amounts were
spelled**: requests with the same document agree, with equal numbers for their amounts, and requests
that agree in the families of these, too, have the same claim. -/
theorem claim_loses_spelling_only :
    (d.claim.document = d'.claim.document →
      Agree (fun a b => a.value = b.value) enforce r other) ∧
    (Agree (fun a b => a.value = b.value ∧ a.family = b.family) enforce r other →
      d.claim = d'.claim) := by
  rw [Claim.document_inj, claim_eq_iff_agree h h']
  constructor
  · intro hagree
    exact hagree.mono fun _ _ ha hb htext => Quantity.value_eq_of_toText_eq ha hb htext
  · intro hagree
    exact hagree.mono fun _ _ ha hb hsame =>
      Quantity.toText_eq_of_value_eq ha hb hsame.2 hsame.1

end

theorem claim_loses_spelling_only_gibi :
    let typed : Request := ⟨ascii "data", ascii "team", ascii "1.5Gi", ascii "2Gi",
      ascii "ReadWriteOnce,ReadOnlyMany", ascii "fast"⟩
    let retyped : Request :=
      { typed with storageRequest := ascii "+1536.0Mi", storageLimit := ascii "2048Mi" }
    ∃ d d', typed.draft true = .ok d ∧ retyped.draft true = .ok d' ∧ d.claim = d'.claim ∧
      Agree (fun a b => a.value = b.value) true typed retyped := by
  intro typed retyped
  have hrequest : Quantity.parse (ascii "1.5Gi") = .ok ⟨false, ⟨[15]⟩, -1, 30, .binarySI⟩ := rfl
  have hrequest' : Quantity.parse (ascii "+1536.0Mi") = .ok ⟨false, ⟨[15360]⟩, -1, 20, .binarySI⟩ :=
    rfl
  have hlimit : Quantity.parse (ascii "2Gi") = .ok ⟨false, ⟨[2]⟩, 0, 30, .binarySI⟩ := rfl
  have hlimit' : Quantity.parse (ascii "2048Mi") = .ok ⟨false, ⟨[2048]⟩, 0, 20, .binarySI⟩ := rfl
  have hvalue := (Quantity.eq_iff (Quantity.wellFormed_of_parse hrequest)
    (Quantity.wellFormed_of_parse hrequest')).mp (by decide)
  have hvalue' := (Quantity.eq_iff (Quantity.wellFormed_of_parse hlimit)
    (Quantity.wellFormed_of_parse hlimit')).mp (by decide)
  have hagree : Agree (fun a b => a.value = b.value ∧ a.family = b.family) true typed retyped :=
    ⟨rfl, rfl, rfl, fun _ => rfl, ⟨_, _, hrequest, hrequest', hvalue, rfl⟩, by decide,
      fun _ => ⟨_, _, hlimit, hlimit', hvalue', rfl⟩⟩
  have hd : typed.draft true = .ok _ := rfl
  have hd' : retyped.draft true = .ok _ := rfl
  obtain ⟨hsame, hclaim⟩ := claim_loses_spelling_only hd hd'
  have heq := hclaim hagree
  exact ⟨_, _, hd, hd', heq, hsame (Claim.document_inj.mpr heq)⟩

end Request
end VolumeClaim
