import VolumeClaim.Claim
import VolumeClaim.Proofs.Draft
import VolumeClaim.Proofs.Quantity.CanonicalText

/-!
# Canonical texts are read back

The canonical text of a quantity is read exactly if the number is in the range of the exponents
that a literal may carry, and then as the same number.  The amounts of a document are canonical
texts of amounts of its draft, and those were read themselves.

* `readsBack_of_wellFormed`  the round trip of a quantity;
* `mem_amounts_claim`        where the amounts of a document come from.
-/

namespace VolumeClaim

/-! ## The amounts of a document -/

/-- the amounts that a document names -/
def Claim.amounts (c : Claim) : List Text :=
  match c.spec.bind ClaimSpec.resources with
  | some r => (r.limits.entries ++ r.requests.entries).map Prod.snd
  | none => []

theorem mem_amountTexts {e : Text × Text} {amounts : List (Text × Quantity)}
    (h : e ∈ (amountTexts amounts).entries) : ∃ q ∈ amounts.map Prod.snd, e.2 = q.toText := by
  obtain ⟨a, ha, rfl⟩ := List.mem_map.mp (Keyed.mem_of_mem_ofList h)
  exact ⟨a.2, List.mem_map_of_mem ha, rfl⟩

/-- a document names amounts of its draft only, in canonical text -/
theorem mem_amounts_claim {d : Draft} {t : Text} (h : t ∈ d.claim.amounts) :
    ∃ q ∈ d.quantities, t = q.toText := by
  obtain ⟨e, he, rfl⟩ := List.mem_map.mp h
  unfold Draft.quantities
  rw [List.map_append]
  rcases List.mem_append.mp he with he | he
  · obtain ⟨q, hq, ht⟩ := mem_amountTexts he
    exact ⟨q, List.mem_append_left _ hq, ht⟩
  · obtain ⟨q, hq, ht⟩ := mem_amountTexts he
    exact ⟨q, List.mem_append_right _ hq, ht⟩

namespace Quantity

/-! ## The round trip -/

/-- the canonical text is read if the number is in range, and only as the same number -/
def ReadsBack (q : Quantity) : Prop :=
  ((∃ r, parse q.toText = .ok r) ↔ q.InRange) ∧
    ∀ r, parse q.toText = .ok r → r.value = q.value ∧ r.compare q = .eq

theorem readsBack_of_wellFormed {q : Quantity} (h : q.WellFormed) : q.ReadsBack := by
  obtain ⟨l, htext, hvalue, hbounded⟩ := exists_literal_toText h
  unfold ReadsBack
  rw [htext, ← hbounded]
  by_cases hb : l.Bounded
  · have hv : (quantityOf l).value = q.value := (value_quantityOf l).trans hvalue
    rw [parse_text_of_bounded l hb]
    constructor
    · exact ⟨fun _ => hb, fun _ => ⟨_, rfl⟩⟩
    · intro r hr
      cases hr
      refine ⟨hv, ?_⟩
      rw [compare_eq_cmp (wellFormed_quantityOf l) h, hv]
      exact cmp_self_eq_eq _
  · rw [parse_text_of_not_bounded l hb]
    constructor
    · constructor
      · rintro ⟨r, hr⟩
        cases hr
      · intro h
        exact absurd h hb
    · intro r hr
      cases hr

/-- **The canonical text of a quantity that was read is read back exactly if the number is in
range, and then compares equal**; and so is every amount that a document names. -/
theorem canonical_text_reads_back :
    (∀ raw q, parse raw = .ok q → q.ReadsBack) ∧
    (∀ (r : Request) (enforce : Bool) (d : Draft), r.draft enforce = .ok d → d.Read) ∧
    (∀ d : Draft, d.Read → ∀ t ∈ d.claim.amounts, ∃ q ∈ d.quantities,
      t = q.toText ∧ q.ReadsBack) := by
  have hparse : ∀ raw q, parse raw = .ok q → q.ReadsBack := by
    intro raw q h
    exact readsBack_of_wellFormed (wellFormed_of_parse h)
  refine ⟨hparse, fun r enforce d h => Request.read_of_draft h, ?_⟩
  intro d hd t ht
  obtain ⟨q, hq, rfl⟩ := mem_amounts_claim ht
  obtain ⟨raw, hraw⟩ := hd q hq
  exact ⟨q, hq, rfl, hparse raw q hraw⟩

/-- a limit of `1e3` on a request for `0.1Ki`, which is written as `102400m` -/
theorem canonical_text_reads_back_limit : ∃ (q : Quantity) (d : Draft),
    parse (ascii "0.1Ki") = .ok q ∧ (∃ r, parse (ascii "102400m") = .ok r ∧ r.compare q = .eq) ∧
      Request.draft ⟨ascii "data", [], ascii "0.1Ki", ascii "1e3", [], []⟩ true = .ok d ∧
      d.claim.amounts = [ascii "1e3", ascii "102400m"] ∧
      ∀ t ∈ d.claim.amounts, ∃ q ∈ d.quantities, t = q.toText ∧ q.ReadsBack := by
  obtain ⟨hparse, hdraft, hclaim⟩ := canonical_text_reads_back
  have hq : parse (ascii "0.1Ki") = .ok ⟨false, ⟨[1]⟩, -1, 10, .binarySI⟩ := rfl
  have hr : parse (ascii "102400m") = .ok ⟨false, ⟨[102400]⟩, -3, 0, .decimalSI⟩ := rfl
  have hd : Request.draft ⟨ascii "data", [], ascii "0.1Ki", ascii "1e3", [], []⟩ true =
    .ok ⟨Draft.currentVersion, Draft.claimKind, ascii "data", [],
      [(Draft.storage, ⟨false, ⟨[1]⟩, -1, 10, .binarySI⟩)],
      [(Draft.storage, ⟨false, ⟨[1]⟩, 3, 0, .decimalExponent⟩)], [], none⟩ := rfl
  exact ⟨_, _, hq, ⟨_, hr, ((hparse _ _ hq).2 _ hr).2⟩, hd, rfl, hclaim _ (hdraft _ _ _ hd)⟩

/-- the exponent of a canonical text can be out of bounds where that of the literal is not -/
theorem canonical_text_beyond_bound :
    parse (ascii "1e-1024") = .ok ⟨false, ⟨[1]⟩, -1024, 0, .decimalExponent⟩ ∧
      toText ⟨false, ⟨[1]⟩, -1024, 0, .decimalExponent⟩ = ascii "100e-1026" ∧
      ¬ ∃ r, parse (ascii "100e-1026") = .ok r := by
  refine ⟨rfl, rfl, ?_⟩
  rintro ⟨r, hr⟩
  have he : parse (ascii "100e-1026") =
      .error (.unknownSuffix (ascii "100e-1026") (ascii "e-1026")) := rfl
  rw [he] at hr
  cases hr

end Quantity
end VolumeClaim
