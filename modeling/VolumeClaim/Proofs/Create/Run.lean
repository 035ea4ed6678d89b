import VolumeClaim.Create
import VolumeClaim.Proofs.Claim.Sound
import VolumeClaim.Proofs.Store.Holding

/-!
# One attempt to create a claim

An attempt ends in a fault, or it answers the claim of its draft: as it is for a client dry run,
in the namespace of the attempt if it was submitted.

* `Create.draft_eq_ok_iff` what it takes to get a draft;
* `Create.ran_run`         all that can come of an attempt;
* `Create.sound_of_run`    what is answered is sound;
* `Create.holds_run`       and held from then on, if the attempt was for good.
-/

namespace VolumeClaim.Create

/-! ## Drafts -/

section
variable {o : Options} {space : NamespaceChoice} {d : Draft}

theorem draft_eq_ok_iff : draft o space = .ok d ↔
    { o.request with namespaceName := space.name }.check = .ok () ∧
      { o.request with namespaceName := space.name }.draft space.enforce = .ok d := by
  unfold draft
  dsimp only
  cases { o.request with namespaceName := space.name }.check with
  | error flaw =>
    constructor
    · intro h
      cases h
    · rintro ⟨h, -⟩
      cases h
  | ok done =>
    rw [mapError_eq_ok_iff]
    exact (and_iff_right rfl).symm

theorem sound_claimOf (h : draft o space = .ok d) : (claimOf o d).Sound := by
  obtain ⟨hcheck, hdraft⟩ := draft_eq_ok_iff.mp h
  have hsound := Claim.sound_of_draft hcheck hdraft
  unfold claimOf
  by_cases hsave : o.saveConfig = true
  · rw [if_pos hsave]
    exact hsound.recordLastApplied
  · rw [if_neg hsave]
    exact hsound

theorem name_claimOf (h : draft o space = .ok d) : (claimOf o d).name = o.request.name := by
  have hfills := Request.fills_of_draft (draft_eq_ok_iff.mp h).2
  have hname : d.name = o.request.name := hfills.name
  rw [← hname]
  unfold claimOf
  split <;> rfl

end

/-! ## Submissions -/

section
variable {dryRun : DryRun} {store : Option Store} {space : NamespaceChoice} {c x : Claim}

theorem submit_client : submit .client store space c = (.ok c, store) := rfl

theorem submit_none (h : dryRun ≠ .client) : submit dryRun none space c = (.error .noStore, none) :=
  if_neg h

theorem submit_some (h : dryRun ≠ .client) (s : Store) : submit dryRun (some s) space c =
    ((s.create space.name c (dryRun = .server)).1.mapError .refused,
      some (s.create space.name c (dryRun = .server)).2) :=
  if_neg h

theorem submit_of_create {s s' : Store} {result : Except Store.Fault Claim}
    (h : dryRun ≠ .client) (hcreate : s.create space.name c (dryRun = .server) = (result, s')) :
    submit dryRun (some s) space c = (result.mapError .refused, some s') := by
  rw [submit_some h, hcreate]

theorem eq_of_submit (h : (submit dryRun store space c).1 = .ok x) :
    (dryRun = .client ∧ x = c) ∨ (dryRun ≠ .client ∧ x = c.inNamespace space.name) := by
  by_cases hclient : dryRun = .client
  · rw [hclient, submit_client] at h
    exact .inl ⟨hclient, (Except.ok.inj h).symm⟩
  · cases store with
    | none =>
      rw [submit_none hclient] at h
      cases h
    | some s =>
      rw [submit_some hclient] at h
      exact .inr ⟨hclient, Store.eq_of_create (mapError_eq_ok_iff.mp h)⟩

variable (dryRun space c)

theorem holds_submit (s : Store) : ∃ s', (submit dryRun (some s) space c).2 = some s' ∧
    ∀ x, s'.Holds x ↔ s.Holds x ∨ dryRun = .none ∧ (submit dryRun (some s) space c).1 = .ok x := by
  by_cases hclient : dryRun = .client
  · refine ⟨s, ?_, fun x => ?_⟩
    · rw [hclient, submit_client]
    · simp [hclient]
  · have hcheck : decide (dryRun = .server) = false ↔ dryRun = .none := by
      cases dryRun <;> simp at hclient ⊢
    refine ⟨_, congrArg Prod.snd (submit_some hclient s), fun x => ?_⟩
    rw [Store.holds_create, hcheck, submit_some hclient, mapError_eq_ok_iff]

end

/-! ## Attempts -/

/-- the outcomes of an attempt -/
inductive Ran (s : Settings) (o : Options) (store : Option Store) (logger : Option Logger) :
    Attempt → Prop where
  | undrafted {fault : Fault} (drafted : draft o (resolveNamespace o s) = .error fault) :
    Ran s o store logger ⟨.error fault, .nothing, [], store, logger⟩
  | rejected {d : Draft} {fault : Fault} {store' : Option Store} {entries : List LogEntry}
    {logger' : Option Logger} (drafted : draft o (resolveNamespace o s) = .ok d)
    (submitted : submit o.dryRun store (resolveNamespace o s) (claimOf o d) =
      (.error fault, store')) :
    Ran s o store logger ⟨.error fault, .nothing, entries, store', logger'⟩
  | answered {d : Draft} {c : Claim} {store' : Option Store} {entries : List LogEntry}
    {logger' : Option Logger} (drafted : draft o (resolveNamespace o s) = .ok d)
    (submitted : submit o.dryRun store (resolveNamespace o s) (claimOf o d) = (.ok c, store')) :
    Ran s o store logger ⟨.ok c, .print o.format o.dryRun.operation c, entries, store', logger'⟩

section
variable {s : Settings} {o : Options} (store : Option Store) (logger : Option Logger)

theorem run_of_undrafted {fault : Fault} (h : draft o (resolveNamespace o s) = .error fault) :
    run s o store logger = ⟨.error fault, .nothing, [], store, logger⟩ := by
  simp only [run, h]

theorem run_of_drafted {d : Draft} (h : draft o (resolveNamespace o s) = .ok d) :
    run s o store logger = runDraft o d (resolveNamespace o s) store logger := by
  simp only [run, h]

end

section
variable {o : Options} {d : Draft} {space : NamespaceChoice} {store store' : Option Store}
  (logger : Option Logger)

/-- the message about the claim that was drafted, which comes first in any case -/
def recordBuilt (logger : Option Logger) (d : Draft) (space : NamespaceChoice) :
    Option Logger × List LogEntry :=
  Log.record logger .debug (ascii "claim built") (builtFields d space)

theorem runDraft_of_rejected {fault : Fault}
    (h : submit o.dryRun store space (claimOf o d) = (.error fault, store')) :
    runDraft o d space store logger = ⟨.error fault, .nothing, (recordBuilt logger d space).2,
      store', (recordBuilt logger d space).1⟩ := by
  simp only [runDraft, h]
  rfl

theorem runDraft_of_answered {c : Claim}
    (h : submit o.dryRun store space (claimOf o d) = (.ok c, store')) :
    runDraft o d space store logger = ⟨.ok c, .print o.format o.dryRun.operation c,
      (recordBuilt logger d space).2 ++
        (recordSubmitted o.dryRun (recordBuilt logger d space).1 d space).2,
      store', (recordSubmitted o.dryRun (recordBuilt logger d space).1 d space).1⟩ := by
  simp only [runDraft, h]
  rfl

end

section
variable (s : Settings) (o : Options) (store : Option Store) (logger : Option Logger)

theorem ran_run : Ran s o store logger (run s o store logger) := by
  cases hdraft : draft o (resolveNamespace o s) with
  | error fault =>
    rw [run_of_undrafted store logger hdraft]
    exact .undrafted hdraft
  | ok d =>
    rw [run_of_drafted store logger hdraft]
    cases hsubmit : submit o.dryRun store (resolveNamespace o s) (claimOf o d) with
    | mk result store' =>
      cases result with
      | error fault =>
        rw [runDraft_of_rejected logger hsubmit]
        exact .rejected hdraft hsubmit
      | ok c =>
        rw [runDraft_of_answered logger hsubmit]
        exact .answered hdraft hsubmit

theorem sound_of_run {c : Claim} (h : (run s o store logger).result = .ok c) :
    c.Sound ∧ c.name = o.request.name ∧ (o.dryRun ≠ .client →
      c.metadataOrEmpty.namespaceName = (resolveNamespace o s).name) := by
  have hran := ran_run s o store logger
  generalize run s o store logger = attempt at h hran
  cases hran with
  | undrafted => cases h
  | rejected => cases h
  | @answered d c' store' entries logger' hdraft hsubmit =>
    cases h
    have hsound := sound_claimOf hdraft
    have hname := name_claimOf hdraft
    rcases eq_of_submit (congrArg Prod.fst hsubmit) with ⟨hclient, rfl⟩ | ⟨-, rfl⟩
    · exact ⟨hsound, hname, fun hne => absurd hclient hne⟩
    · exact ⟨hsound.inNamespace _, hname, fun _ => rfl⟩

end

theorem holds_run (s : Settings) (o : Options) (start : Store) (logger : Option Logger) :
    ∃ stop, (run s o (some start) logger).store = some stop ∧ ∀ c, stop.Holds c ↔
      start.Holds c ∨ o.dryRun = .none ∧ (run s o (some start) logger).result = .ok c := by
  have hran := ran_run s o (some start) logger
  generalize run s o (some start) logger = attempt at hran
  cases hran with
  | undrafted => exact ⟨start, rfl, fun c => by simp⟩
  | @rejected d fault store' entries logger' hdraft hsubmit =>
    obtain ⟨stop, hstop, hholds⟩ :=
      holds_submit o.dryRun (resolveNamespace o s) (claimOf o d) start
    rw [hsubmit] at hstop hholds
    exact ⟨stop, hstop, hholds⟩
  | @answered d c store' entries logger' hdraft hsubmit =>
    obtain ⟨stop, hstop, hholds⟩ :=
      holds_submit o.dryRun (resolveNamespace o s) (claimOf o d) start
    rw [hsubmit] at hstop hholds
    exact ⟨stop, hstop, hholds⟩

end VolumeClaim.Create
