import VolumeClaim.Proofs.Draft
import VolumeClaim.Proofs.Text

/-!
# Checked requests

A request passes the check if it names a claim and an amount, and its access modes, if it has any,
are names of modes with commas between them.  `Rejected` lists the flaws in the order in which they
are found.

* `check_eq_ok_iff`, `check_eq_error_iff` what is passed, and what is found otherwise;
* `modeTokens_eq_iff`       the tokens that the check and the draft see are those of the text;
* `check_outcome`           the check as a whole.
-/

namespace VolumeClaim

theorem AccessMode.exists_ofName?_iff {t : Text} : (∃ mode, ofName? t = some mode) ↔
    t ∈ [ascii "ReadOnlyMany", ascii "ReadWriteMany", ascii "ReadWriteOnce"] := by
  show _ ↔ t ∈ all.map name
  simp [ofName?_eq_some_iff, mem_all]

namespace Request
open Text

/-! ## Tokens -/

/-- one of the names of access modes, in this case -/
def IsMode (t : Text) : Prop :=
  t ∈ [ascii "ReadOnlyMany", ascii "ReadWriteMany", ascii "ReadWriteOnce"]

theorem isNone_ofName?_iff {t : Text} : (AccessMode.ofName? t).isNone = true ↔ ¬ IsMode t := by
  unfold IsMode
  rw [← AccessMode.exists_ofName?_iff, Option.isNone_iff_eq_none, ← Option.ne_none_iff_exists',
    ne_eq, Classical.not_not]

theorem comma_notMem_of_isMode {t : Text} (h : IsMode t) : byte ',' ∉ t := by
  have hnames : ∀ t ∈ [ascii "ReadOnlyMany", ascii "ReadWriteMany", ascii "ReadWriteOnce"],
    byte ',' ∉ t := by decide
  exact hnames t h

section
variable {r : Request}

theorem modeTokens_of_nil (h : r.accessModes = []) : r.modeTokens = [] := if_pos h

theorem modeTokens_eq_iff (h : r.accessModes ≠ []) {tokens : List Text} : r.modeTokens = tokens ↔
    tokens ≠ [] ∧ (∀ t ∈ tokens, byte ',' ∉ t) ∧ join (byte ',') tokens = r.accessModes := by
  have hsplit : r.modeTokens = split (byte ',') r.accessModes := if_neg h
  rw [hsplit, eq_comm]
  exact eq_split_iff (byte ',')

theorem length_modeTokens (h : r.accessModes ≠ []) :
    r.modeTokens.length = r.accessModes.count (byte ',') + 1 := by
  have hsplit : r.modeTokens = split (byte ',') r.accessModes := if_neg h
  rw [hsplit, length_split]

theorem unknownMode?_eq_none_iff : r.unknownMode? = none ↔ ∀ t ∈ r.modeTokens, IsMode t := by
  unfold unknownMode?
  simp only [List.find?_eq_none, isNone_ofName?_iff, Classical.not_not]

/-- the token that is found is the leftmost one -/
theorem unknownMode?_eq_some_iff {token : Text} : r.unknownMode? = some token ↔
    ¬ IsMode token ∧ ∃ before after, r.modeTokens = before ++ token :: after ∧
      ∀ t ∈ before, IsMode t := by
  unfold unknownMode?
  simp only [List.find?_eq_some_iff_append, Bool.not_eq_true', ← Bool.not_eq_true,
    isNone_ofName?_iff, Classical.not_not]

/-! ## The check -/

theorem check_eq_ok_iff :
    r.check = .ok () ↔ r.name ≠ [] ∧ r.storageRequest ≠ [] ∧ ∀ t ∈ r.modeTokens, IsMode t := by
  rw [← unknownMode?_eq_none_iff]
  unfold check
  by_cases hname : r.name = []
  · simp [hname]
  by_cases hrequest : r.storageRequest = []
  · simp [hname, hrequest]
  rw [if_neg hname, if_neg hrequest]
  cases r.unknownMode? <;> simp [hname, hrequest]

/-- the request names a claim and an amount, and no access modes or known ones -/
structure Accepted (r : Request) : Prop where
  name : r.name ≠ []
  storageRequest : r.storageRequest ≠ []
  accessModes : r.accessModes = [] ∨ ∃ modes, modes ≠ [] ∧ (∀ t ∈ modes, IsMode t) ∧
    r.accessModes = join (byte ',') modes

/-- the flaw of a request that is not accepted -/
inductive Rejected (r : Request) : Flaw → Prop where
  | noName (name : r.name = []) : Rejected r .noName
  | noStorageRequest (name : r.name ≠ []) (storageRequest : r.storageRequest = []) :
    Rejected r .noStorageRequest
  | unknownAccessMode {before after : List Text} {token : Text} (name : r.name ≠ [])
    (storageRequest : r.storageRequest ≠ []) (given : r.accessModes ≠ [])
    (tokens : r.accessModes = join (byte ',') (before ++ token :: after))
    (separate : ∀ t ∈ before ++ token :: after, byte ',' ∉ t) (known : ∀ t ∈ before, IsMode t)
    (unknown : ¬ IsMode token) : Rejected r (.unknownAccessMode token)

theorem check_eq_ok_iff_accepted : r.check = .ok () ↔ r.Accepted := by
  rw [check_eq_ok_iff]
  constructor
  · rintro ⟨hname, hrequest, hmodes⟩
    refine ⟨hname, hrequest, ?_⟩
    by_cases hgiven : r.accessModes = []
    · exact .inl hgiven
    · obtain ⟨hne, -, hjoin⟩ := (modeTokens_eq_iff hgiven).mp rfl
      exact .inr ⟨r.modeTokens, hne, hmodes, hjoin.symm⟩
  · rintro ⟨hname, hrequest, hmodes⟩
    refine ⟨hname, hrequest, ?_⟩
    by_cases hgiven : r.accessModes = []
    · rw [modeTokens_of_nil hgiven]
      exact fun t ht => absurd ht List.not_mem_nil
    · obtain ⟨modes, hne, hknown, hjoin⟩ := hmodes.resolve_left hgiven
      have htokens : r.modeTokens = modes := (modeTokens_eq_iff hgiven).mpr
        ⟨hne, fun t ht => comma_notMem_of_isMode (hknown t ht), hjoin.symm⟩
      rw [htokens]
      exact hknown

theorem rejected_unknownAccessMode_iff {token : Text} (hname : r.name ≠ [])
    (hrequest : r.storageRequest ≠ []) :
    r.Rejected (.unknownAccessMode token) ↔ r.unknownMode? = some token := by
  rw [unknownMode?_eq_some_iff]
  constructor
  · intro h
    cases h with
    | @unknownAccessMode before after token _ _ hgiven htokens hseparate hknown hunknown =>
      have hne : before ++ token :: after ≠ [] := by simp
      exact ⟨hunknown, before, after,
        (modeTokens_eq_iff hgiven).mpr ⟨hne, hseparate, htokens.symm⟩, hknown⟩
  · rintro ⟨hunknown, before, after, htokens, hknown⟩
    have hgiven : r.accessModes ≠ [] := by
      intro hnil
      rw [modeTokens_of_nil hnil] at htokens
      exact absurd htokens.symm (by simp)
    obtain ⟨-, hseparate, hjoin⟩ := (modeTokens_eq_iff hgiven).mp htokens
    exact .unknownAccessMode hname hrequest hgiven hjoin.symm hseparate hknown hunknown

theorem check_eq_error_iff {flaw : Flaw} : r.check = .error flaw ↔ r.Rejected flaw := by
  unfold check
  by_cases hname : r.name = []
  · rw [if_pos hname]
    constructor
    · intro h
      cases h
      exact .noName hname
    · intro h
      cases h with
      | noName => rfl
      | noStorageRequest hne => exact absurd hname hne
      | unknownAccessMode hne => exact absurd hname hne
  by_cases hrequest : r.storageRequest = []
  · rw [if_neg hname, if_pos hrequest]
    constructor
    · intro h
      cases h
      exact .noStorageRequest hname hrequest
    · intro h
      cases h with
      | noName hnil => exact absurd hnil hname
      | noStorageRequest => rfl
      | unknownAccessMode _ hne => exact absurd hrequest hne
  rw [if_neg hname, if_neg hrequest]
  cases flaw with
  | noName | noStorageRequest =>
    constructor
    · intro h
      split at h <;> cases h
    · intro h
      cases h
      contradiction
  | unknownAccessMode token =>
    rw [rejected_unknownAccessMode_iff hname hrequest]
    cases r.unknownMode? <;> simp

/-! ## The message -/

theorem message_unknownAccessMode {token : Text} (h : 0 ∉ token) :
    (Flaw.unknownAccessMode token).message =
      ascii "provided access mode " ++ token ++ ascii " is invalid" := by
  have hlead : (0 : UInt8) ∉ ascii "provided access mode " := by decide
  have hend : (0 : UInt8) ∉ ascii " is invalid" := by decide
  refine untilZero_eq_self fun hmem => ?_
  rcases List.mem_append.mp hmem with hmem | hmem
  · exact (List.mem_append.mp hmem).elim hlead h
  · exact hend hmem

theorem message_unknownAccessMode_of_zero {shown : Text} (h : 0 ∉ shown) (rest : Text) :
    (Flaw.unknownAccessMode (shown ++ 0 :: rest)).message =
      ascii "provided access mode " ++ shown := by
  have hlead : (0 : UInt8) ∉ ascii "provided access mode " := by decide
  show untilZero (ascii "provided access mode " ++ (shown ++ 0 :: rest) ++ ascii " is invalid") = _
  rw [List.append_assoc, List.append_assoc, untilZero_append hlead, untilZero_append h,
    List.cons_append, untilZero_cons_zero, List.append_nil]

/-! ## All of it -/

/-- the access modes of a draft are known ones, one more than there are commas -/
structure ModesOf (r : Request) (d : Draft) : Prop where
  known : ∀ t ∈ d.accessModes, IsMode t
  none_given : r.accessModes = [] → d.accessModes = []
  count : r.accessModes ≠ [] → d.accessModes.length = r.accessModes.count (byte ',') + 1

theorem modesOf_draft {enforce : Bool} {d : Draft} (hcheck : r.check = .ok ())
    (h : r.draft enforce = .ok d) : r.ModesOf d := by
  obtain ⟨-, -, hknown⟩ := check_eq_ok_iff.mp hcheck
  obtain ⟨request, limit, -, -, rfl⟩ := draft_eq_ok_iff.mp h
  exact ⟨hknown, modeTokens_of_nil, length_modeTokens⟩

end

/-- **The check passes exactly the requests with a name, an amount and known access modes; otherwise
it reports the flaw that comes first**, of the tokens the leftmost one, up to a zero byte if it has
one; and a draft of a request that passed has known modes only. -/
theorem check_outcome (r : Request) :
    (r.check = .ok () ↔ r.Accepted) ∧ (∀ flaw, r.check = .error flaw ↔ r.Rejected flaw) ∧
      Flaw.noName.message = ascii "name must be specified" ∧
      Flaw.noStorageRequest.message = ascii "storage-request must be specified" ∧
      (∀ token, 0 ∉ token → (Flaw.unknownAccessMode token).message =
        ascii "provided access mode " ++ token ++ ascii " is invalid") ∧
      (∀ shown rest, 0 ∉ shown → (Flaw.unknownAccessMode (shown ++ 0 :: rest)).message =
        ascii "provided access mode " ++ shown) ∧
      (r.check = .ok () → ∀ enforce d, r.draft enforce = .ok d → r.ModesOf d) :=
  ⟨check_eq_ok_iff_accepted, fun _ => check_eq_error_iff, rfl, rfl,
    fun _ => message_unknownAccessMode, fun _ rest h => message_unknownAccessMode_of_zero h rest,
    fun hcheck _ _ => modesOf_draft hcheck⟩

/-- a token with a zero byte is not named in full -/
theorem zero_byte_cuts_token :
    check ⟨ascii "x", [], ascii "1Gi", [], ascii "ReadWriteOnce,a" ++ 0 :: ascii "b", []⟩ =
        .error (.unknownAccessMode (ascii "a" ++ 0 :: ascii "b")) ∧
      (Flaw.unknownAccessMode (ascii "a" ++ 0 :: ascii "b")).message =
        ascii "provided access mode a" ∧
      ¬ ascii "a" ++ 0 :: ascii "b" <:+: ascii "provided access mode a" := by
  refine ⟨rfl, rfl, fun h => ?_⟩
  have hzero : (0 : UInt8) ∈ ascii "a" ++ 0 :: ascii "b" := by decide
  exact absurd (h.subset hzero) (by decide)

/-- an empty token is one too, and what follows it is not looked at -/
example : check ⟨ascii "x", [], ascii "1Gi", [], ascii "ReadWriteOnce,,ROX", []⟩ =
    .error (.unknownAccessMode []) := rfl

end Request
end VolumeClaim
