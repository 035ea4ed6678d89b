import VolumeClaim.Proofs.Claim.LastApplied
import VolumeClaim.Proofs.Create.DryRun
import VolumeClaim.Proofs.Store.Revision

/-!
# Runs with and without a record

A run that records the applied configuration and one that does not are the same run, but for the
one annotation.  A submission looks at nothing but the namespace and the name, so what the claim
carries cannot change its course.

* `Create.exists_uniform`   the courses of a submission, for all claims of a name at once;
* `Create.recording_is_isolated` the two runs side by side.
-/

namespace VolumeClaim

def Options.withSaveConfig (o : Options) (saveConfig : Bool) : Options :=
  { o with saveConfig := saveConfig }

/-- a line with the name says nothing about annotations -/
theorem Output.print_withoutLastApplied {format : OutputFormat}
    (h : format = .standard ∨ format = .name) (operation : Text) (c : Claim) :
    print format operation c.withoutLastApplied = print format operation c := by
  rcases h with rfl | rfl
  · show text (nameLine c.withoutLastApplied operation) = text (nameLine c operation)
    rfl
  · show text (nameLine c.withoutLastApplied []) = text (nameLine c [])
    rfl

namespace Create

/-! ## Submissions of any claim of a name -/

/-- what is answered for a claim that goes through -/
def stamp (dryRun : DryRun) (space : NamespaceChoice) (c : Claim) : Claim :=
  if dryRun = .client then c else c.inNamespace space.name

theorem annotations_stamp (dryRun : DryRun) (space : NamespaceChoice) (c : Claim) :
    (stamp dryRun space c).annotations = c.annotations := by
  unfold stamp
  split <;> rfl

theorem name_stamp (dryRun : DryRun) (space : NamespaceChoice) (c : Claim) :
    (stamp dryRun space c).name = c.name := by
  unfold stamp
  split <;> rfl

theorem withoutLastApplied_stamp (dryRun : DryRun) (space : NamespaceChoice) (c : Claim) :
    (stamp dryRun space c).withoutLastApplied = stamp dryRun space c.withoutLastApplied := by
  unfold stamp
  split
  · rfl
  · rw [Claim.withoutLastApplied_inNamespace]

theorem withoutLastApplied_stamp_draft (dryRun : DryRun) (space : NamespaceChoice) (d : Draft) :
    (stamp dryRun space d.claim.recordLastApplied).withoutLastApplied =
      stamp dryRun space d.claim := by
  rw [withoutLastApplied_stamp, Claim.withoutLastApplied_recordLastApplied,
    Draft.withoutLastApplied_claim]

/-- the course of every submission of a claim of the name: it fails, or it is answered and nothing
is stored, or the answer is what gets stored -/
inductive Uniform (dryRun : DryRun) (store : Option Store) (space : NamespaceChoice) (name : Text) :
    Prop where
  | failed {fault : Fault} {store' : Option Store} (submit : ∀ c, c.name = name →
      submit dryRun store space c = (.error fault, store'))
  | kept (dry : dryRun ≠ .none) (submit : ∀ c, c.name = name →
      submit dryRun store space c = (.ok (stamp dryRun space c), store))
  | added {start : Store} (real : dryRun = .none) (submit : ∀ c, c.name = name →
      submit dryRun store space c = (.ok (stamp dryRun space c),
        some (start.insert space.name (stamp dryRun space c))))
    (vacant : start.IsVacant space.name name)

theorem exists_uniform (dryRun : DryRun) (store : Option Store) (space : NamespaceChoice)
    (name : Text) : Uniform dryRun store space name := by
  cases dryRun with
  | client => exact .kept (by decide) fun _ _ => rfl
  | none =>
    have hne : DryRun.none ≠ .client := by decide
    cases store with
    | none => exact .failed fun _ _ => submit_none hne
    | some start =>
      cases start.exists_course space.name name with
      | refused create => exact .failed fun c hc => submit_of_create hne (create c false hc)
      | failed check create => exact .failed fun c hc => submit_of_create hne (create c hc)
      | added check create same vacant =>
        exact .added rfl (fun c hc => submit_of_create hne (create c hc)) vacant
  | server =>
    have hne : DryRun.server ≠ .client := by decide
    cases store with
    | none => exact .failed fun _ _ => submit_none hne
    | some start =>
      cases start.exists_course space.name name with
      | refused create => exact .failed fun c hc => submit_of_create hne (create c true hc)
      | failed check | added check =>
        exact .kept (by decide) fun c hc => submit_of_create hne (check c hc)

/-! ## The two runs -/

/-- the claim that an attempt with these options hands on once it is built, and what comes of it -/
def HandsOn (s : Settings) (o : Options) (store : Option Store) (attempt : Attempt) (c : Claim) :
    Prop :=
  ∃ d, draft o (resolveNamespace o s) = .ok d ∧ c = claimOf o d ∧
    attempt.result = (submit o.dryRun store (resolveNamespace o s) c).1

/-- what an attempt that records and one that does not have to do with each other -/
structure Isolated (s : Settings) (o : Options) (store : Option Store)
    (saved plain : Attempt) : Prop where
  failed_iff : ∀ fault, saved.result = .error fault ↔ plain.result = .error fault
  failed : ∀ fault, saved.result = .error fault →
    saved.output = .nothing ∧ plain.output = .nothing ∧ saved.store = plain.store
  answered : ∀ c, saved.result = .ok c → plain.result = .ok c.withoutLastApplied
  recorded : ∀ c, saved.result = .ok c → ∃ handed,
    HandsOn s (o.withSaveConfig false) store plain handed ∧
      c.annotations.entries = [(Claim.lastAppliedKey, handed.json)] ∧
      Claim.ofJson handed.json = .ok handed ∧ handed.annotations = .empty ∧
      handed.metadataOrEmpty.namespaceName = o.namespaceName
  kept : ∀ c, saved.result = .ok c → o.dryRun ≠ .none → saved.store = store ∧ plain.store = store
  added : ∀ c, saved.result = .ok c → o.dryRun = .none → ∃ stop, saved.store = some stop ∧
    plain.store = some (stop.revise (resolveNamespace o s).name c.name Claim.withoutLastApplied)
  printed : o.format = .standard ∨ o.format = .name → saved.output = plain.output
  logged : saved.entries = plain.entries ∧ saved.logger = plain.logger

section
variable {s : Settings} {o : Options} {store : Option Store} {d : Draft}

theorem isolated_of_failed {saved plain : Attempt} {fault : Fault}
    (hsaved : saved.result = .error fault) (hprinted : saved.output = .nothing)
    (hsame : saved = plain) : Isolated s o store saved plain := by
  subst hsame
  have hnot : ∀ c, saved.result ≠ .ok c := by
    rw [hsaved]
    exact nofun
  exact {
    failed_iff := fun _ => Iff.rfl
    failed := fun _ _ => ⟨hprinted, hprinted, rfl⟩
    answered := fun c hc => absurd hc (hnot c)
    recorded := fun c hc => absurd hc (hnot c)
    kept := fun c hc => absurd hc (hnot c)
    added := fun c hc => absurd hc (hnot c)
    printed := fun _ => rfl
    logged := ⟨rfl, rfl⟩ }

variable {saved plain : Option Store} (logger : Option Logger)

theorem isolated_of_answered (hdraft : draft o (resolveNamespace o s) = .ok d)
    (hsaved : submit o.dryRun store (resolveNamespace o s) d.claim.recordLastApplied =
      (.ok (stamp o.dryRun (resolveNamespace o s) d.claim.recordLastApplied), saved))
    (hplain : submit o.dryRun store (resolveNamespace o s) d.claim =
      (.ok (stamp o.dryRun (resolveNamespace o s) d.claim), plain))
    (hkept : o.dryRun ≠ .none → saved = store ∧ plain = store)
    (hadded : o.dryRun = .none → ∃ stop, saved = some stop ∧ plain = some
      (stop.revise (resolveNamespace o s).name
        (stamp o.dryRun (resolveNamespace o s) d.claim.recordLastApplied).name
        Claim.withoutLastApplied)) :
    Isolated s o store
      (runDraft (o.withSaveConfig true) d (resolveNamespace o s) store logger)
      (runDraft (o.withSaveConfig false) d (resolveNamespace o s) store logger) := by
  rw [runDraft_of_answered (o := o.withSaveConfig true) logger hsaved,
    runDraft_of_answered (o := o.withSaveConfig false) logger hplain]
  constructor
  case failed_iff => exact fun _ => ⟨nofun, nofun⟩
  case failed => exact nofun
  case answered =>
    rintro c ⟨⟩
    rw [withoutLastApplied_stamp_draft]
  case recorded =>
    rintro c ⟨⟩
    refine ⟨d.claim, ⟨d, hdraft, rfl, (congrArg Prod.fst hplain).symm⟩, ?_, Claim.ofJson_json _,
      rfl, namespaceName_claimOf (o := o.withSaveConfig false) hdraft⟩
    rw [annotations_stamp, Draft.annotations_recordLastApplied]
  case kept => exact fun _ _ => hkept
  case added =>
    rintro c ⟨⟩
    exact hadded
  case printed =>
    intro hformat
    rw [← withoutLastApplied_stamp_draft]
    exact (Output.print_withoutLastApplied hformat _ _).symm
  case logged => exact ⟨rfl, rfl⟩

end

/-- **Recording the applied configuration changes nothing but the one annotation of the new claim:
the run fails as it would, answers and stores the same claim otherwise, and prints the same line.
What is recorded is the text of the claim as the other run hands it on.** -/
theorem recording_is_isolated (s : Settings) (o : Options) (store : Option Store)
    (logger : Option Logger) : Isolated s o store
      (run s (o.withSaveConfig true) store logger)
      (run s (o.withSaveConfig false) store logger) := by
  cases hdraft : draft o (resolveNamespace o s) with
  | error fault =>
    rw [run_of_undrafted (o := o.withSaveConfig true) store logger hdraft,
      run_of_undrafted (o := o.withSaveConfig false) store logger hdraft]
    exact isolated_of_failed rfl rfl rfl
  | ok d =>
    have hclaim : d.claim.name = o.request.name := name_claimOf (o := o.withSaveConfig false) hdraft
    have hmarked : d.claim.recordLastApplied.name = o.request.name := hclaim
    have hrun : ∀ saveConfig, run s (o.withSaveConfig saveConfig) store logger =
        runDraft (o.withSaveConfig saveConfig) d (resolveNamespace o s) store logger :=
      fun saveConfig => run_of_drafted (o := o.withSaveConfig saveConfig) store logger hdraft
    rw [hrun, hrun]
    cases exists_uniform o.dryRun store (resolveNamespace o s) o.request.name with
    | failed submit =>
      rw [runDraft_of_rejected (o := o.withSaveConfig true) logger (submit _ hmarked),
        runDraft_of_rejected (o := o.withSaveConfig false) logger (submit _ hclaim)]
      exact isolated_of_failed rfl rfl rfl
    | kept dry submit =>
      exact isolated_of_answered logger hdraft (submit _ hmarked) (submit _ hclaim)
        (fun _ => ⟨rfl, rfl⟩) (fun hreal => absurd hreal dry)
    | added real submit vacant =>
      refine isolated_of_answered logger hdraft (submit _ hmarked) (submit _ hclaim)
        (fun hdry => absurd real hdry) (fun _ => ⟨_, rfl, ?_⟩)
      rw [← hmarked, ← name_stamp o.dryRun (resolveNamespace o s)] at vacant
      rw [← withoutLastApplied_stamp_draft, Store.revise_insert vacant rfl]

end Create
end VolumeClaim
