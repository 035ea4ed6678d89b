import VolumeClaim.Proofs.Create.Run
import VolumeClaim.Proofs.Store.Course

/-!
# What a dry run foretells

A run for good, one that the store only checks and one that stays away from the store have the
same draft.  The check answers as the run for good does, unless there turns out to be no place for
a file, or an obstruction shows once the directories on the way of the root are made.

* `Create.result_run_of_drafted` the answer of a run is that of its submission;
* `Create.dry_runs_foretell` the answers to one request, side by side;
* `Create.check_misses_hidden_claim` a claim that a check does not see.
-/

namespace VolumeClaim

def Options.withDryRun (o : Options) (dryRun : DryRun) : Options := { o with dryRun := dryRun }

namespace Create
open Text

section
variable {s : Settings} {o : Options} (store : Option Store) (logger : Option Logger)

theorem result_run_of_undrafted {fault : Fault}
    (h : draft o (resolveNamespace o s) = .error fault) :
    (run s o store logger).result = .error fault := by
  rw [run_of_undrafted store logger h]

theorem result_run_of_drafted {d : Draft} (h : draft o (resolveNamespace o s) = .ok d) :
    (run s o store logger).result =
      (submit o.dryRun store (resolveNamespace o s) (claimOf o d)).1 := by
  rw [run_of_drafted store logger h]
  cases hsubmit : submit o.dryRun store (resolveNamespace o s) (claimOf o d) with
  | mk result store' =>
    cases result with
    | error fault => rw [runDraft_of_rejected logger hsubmit]
    | ok c => rw [runDraft_of_answered logger hsubmit]

end

/-- a claim that was not submitted is in a namespace only if the options name one -/
theorem namespaceName_claimOf {s : Settings} {o : Options} {d : Draft}
    (h : draft o (resolveNamespace o s) = .ok d) :
    (claimOf o d).metadataOrEmpty.namespaceName = o.namespaceName := by
  have hfills := Request.fills_of_draft (draft_eq_ok_iff.mp h).2
  have hdraft : d.namespaceName = o.namespaceName := by
    rw [hfills.namespaceName]
    unfold resolveNamespace
    by_cases hgiven : o.namespaceName = []
    · rw [if_neg (not_not_intro hgiven), hgiven]
      split <;> rfl
    · rw [if_pos hgiven]
      rfl
  have hclaim : (claimOf o d).metadataOrEmpty.namespaceName = d.namespaceName := by
    unfold claimOf
    split <;> rfl
  rw [hclaim, hdraft]

/-- the store is on disk, and something that its path does not lead to is in the way of the claim -/
def Obstructed (s : Settings) (o : Options) (store : Option Store) : Prop :=
  ∃ start, store = some start ∧ start.Obstructed (resolveNamespace o s).name o.request.name

/-- what the answers to one request have to do with each other -/
structure Foretold (s : Settings) (o : Options) (store : Option Store)
    (real server client : Except Fault Claim) : Prop where
  refused : ∀ fault, server = .error fault → real = .error fault
  answered : ∀ c, real = .ok c → server = .ok c
  agree_iff : (∀ fault, real = .error (.refused fault) → ¬ fault.IsOfDisk) →
    (server = real ↔ (∃ fault, client = .error fault) ∨ ¬ Obstructed s o store)
  taken : (∀ fault, real = .error (.refused fault) → ¬ fault.IsOfDisk) → server ≠ real →
    real = .error (.refused (.alreadyExists o.request.name))
  straight : (∀ d, store = some (.disk d) → d.tree.Grounded ∧ 0 ∉ d.root ∧
    ascii ".." ∉ split Path.separator d.root) → ¬ Obstructed s o store
  drafted_iff : (∃ c, client = .ok c) ↔
    { o.request with namespaceName := (resolveNamespace o s).name }.check = .ok () ∧
      ∃ d, { o.request with namespaceName := (resolveNamespace o s).name }.draft
        (resolveNamespace o s).enforce = .ok d
  stamped : ∀ c, real = .ok c →
    ∃ drafted, client = .ok drafted ∧ c = drafted.inNamespace (resolveNamespace o s).name
  checked_namespace : ∀ c, server = .ok c →
    c.metadataOrEmpty.namespaceName = (resolveNamespace o s).name
  drafted_namespace : ∀ c, client = .ok c → c.metadataOrEmpty.namespaceName = o.namespaceName

section
variable {s : Settings} {o : Options} {store : Option Store}

theorem not_obstructed_of_straight (h : ∀ d, store = some (.disk d) → d.tree.Grounded ∧
    0 ∉ d.root ∧ ascii ".." ∉ split Path.separator d.root) : ¬ Obstructed s o store := by
  rintro ⟨start, rfl, hobstructed⟩
  cases start with
  | memory m => exact hobstructed
  | disk d =>
    obtain ⟨hgrounded, hzero, hup⟩ := h d rfl
    exact DiskStore.not_obstructed hgrounded hzero hup _ _ hobstructed

theorem foretold_of_undrafted {fault : Fault} (h : draft o (resolveNamespace o s) = .error fault) :
    Foretold s o store (.error fault) (.error fault) (.error fault) where
  refused _ hserver := hserver
  answered := nofun
  agree_iff _ := iff_of_true rfl (.inl ⟨fault, rfl⟩)
  taken _ hne := absurd rfl hne
  straight := not_obstructed_of_straight
  drafted_iff := by
    refine iff_of_false nofun ?_
    rintro ⟨hcheck, d, hdraft⟩
    rw [draft_eq_ok_iff.mpr ⟨hcheck, hdraft⟩] at h
    cases h
  stamped := nofun
  checked_namespace := nofun
  drafted_namespace := nofun

/-- the outcomes of a claim that is submitted both ways -/
inductive Trial (s : Settings) (o : Options) (store : Option Store) (c : Claim) :
    Except Fault Claim → Except Fault Claim → Prop where
  | refused {fault : Fault} (unobstructed : ¬ Obstructed s o store) :
    Trial s o store c (.error fault) (.error fault)
  | failed {fault : Store.Fault} (cause : fault.IsOfDisk ∨
      fault = .alreadyExists o.request.name ∧ Obstructed s o store) :
    Trial s o store c (.error (.refused fault)) (.ok (c.inNamespace (resolveNamespace o s).name))
  | accepted (unobstructed : ¬ Obstructed s o store) :
    Trial s o store c (.ok (c.inNamespace (resolveNamespace o s).name))
      (.ok (c.inNamespace (resolveNamespace o s).name))

theorem trial_submit {c : Claim} (hc : c.name = o.request.name) : Trial s o store c
    (submit .none store (resolveNamespace o s) c).1
    (submit .server store (resolveNamespace o s) c).1 := by
  cases store with
  | none =>
    rw [submit_none (by decide), submit_none (by decide)]
    exact .refused nofun
  | some start =>
    have hobstructed : Obstructed s o (some start) ↔
        start.Obstructed (resolveNamespace o s).name o.request.name := by
      simp [Obstructed]
    have hreal : DryRun.none ≠ .client := by decide
    have hserver : DryRun.server ≠ .client := by decide
    cases start.exists_course (resolveNamespace o s).name o.request.name with
    | refused create unobstructed =>
      rw [submit_of_create hreal (create c _ hc), submit_of_create hserver (create c _ hc)]
      exact .refused (mt hobstructed.mp unobstructed)
    | failed check create cause =>
      rw [submit_of_create hreal (create c hc), submit_of_create hserver (check c hc)]
      exact .failed (cause.imp_right (And.imp_right hobstructed.mpr))
    | added check create same vacant unobstructed =>
      rw [submit_of_create hreal (create c hc), submit_of_create hserver (check c hc)]
      exact .accepted (mt hobstructed.mp unobstructed)

theorem Trial.foretold {d : Draft} {real server : Except Fault Claim}
    (hdraft : draft o (resolveNamespace o s) = .ok d)
    (h : Trial s o store (claimOf o d) real server) :
    Foretold s o store real server (.ok (claimOf o d)) := by
  have hclient : ¬ ∃ fault : Fault, (.ok (claimOf o d) : Except Fault Claim) = .error fault := nofun
  constructor
  case refused =>
    intro fault hserver
    cases h with
    | refused => exact hserver
    | failed | accepted => cases hserver
  case answered =>
    intro c hreal
    cases h with
    | refused | failed => cases hreal
    | accepted => exact hreal
  case agree_iff =>
    intro hdisk
    rw [or_iff_right hclient]
    cases h with
    | refused unobstructed => exact iff_of_true rfl unobstructed
    | failed cause =>
      obtain ⟨-, hobstructed⟩ := cause.resolve_left (hdisk _ rfl)
      exact iff_of_false nofun (not_not_intro hobstructed)
    | accepted unobstructed => exact iff_of_true rfl unobstructed
  case taken =>
    intro hdisk hne
    cases h with
    | refused | accepted => exact absurd rfl hne
    | failed cause => rw [(cause.resolve_left (hdisk _ rfl)).1]
  case straight => exact not_obstructed_of_straight
  case drafted_iff =>
    obtain ⟨hcheck, hdraft⟩ := draft_eq_ok_iff.mp hdraft
    exact iff_of_true ⟨_, rfl⟩ ⟨hcheck, d, hdraft⟩
  case stamped =>
    intro c hreal
    cases h with
    | refused | failed => cases hreal
    | accepted =>
      cases hreal
      exact ⟨_, rfl, rfl⟩
  case checked_namespace =>
    intro c hserver
    cases h with
    | refused => cases hserver
    | failed | accepted =>
      cases hserver
      rfl
  case drafted_namespace =>
    intro c hc
    cases hc
    exact namespaceName_claimOf hdraft

end

/-- **A check is refused only if the run for good is, and for the same fault; it answers what the
run for good would, but for a claim that cannot be put on disk or is obstructed there.  A run
that stays away from the store depends on the draft alone, and its answer lacks nothing but the
namespace.** -/
theorem dry_runs_foretell (s : Settings) (o : Options) (store : Option Store)
    (logger : Option Logger) : Foretold s o store
      (run s (o.withDryRun .none) store logger).result
      (run s (o.withDryRun .server) store logger).result
      (run s (o.withDryRun .client) store logger).result := by
  have hdrafts : ∀ dryRun, draft (o.withDryRun dryRun) (resolveNamespace (o.withDryRun dryRun) s) =
      draft o (resolveNamespace o s) := fun _ => rfl
  cases hdraft : draft o (resolveNamespace o s) with
  | error fault =>
    have hresult : ∀ dryRun, (run s (o.withDryRun dryRun) store logger).result = .error fault :=
      fun dryRun => result_run_of_undrafted store logger ((hdrafts dryRun).trans hdraft)
    rw [hresult, hresult, hresult]
    exact foretold_of_undrafted hdraft
  | ok d =>
    have hresult : ∀ dryRun, (run s (o.withDryRun dryRun) store logger).result =
        (submit dryRun store (resolveNamespace o s) (claimOf o d)).1 :=
      fun dryRun => result_run_of_drafted store logger ((hdrafts dryRun).trans hdraft)
    rw [hresult, hresult, hresult]
    exact (trial_submit (name_claimOf hdraft)).foretold hdraft

/-- a claim is there, but the root goes through a directory that is not: the check does not find
the claim, and the run for good, which makes the directory, does -/
theorem check_misses_hidden_claim :
    let store : Store := .disk ⟨ascii "nope/../r", .ofPaths [ascii "r/default/x.json"]⟩
    let o : Options := { Options.standard with
      request := { Request.empty with name := ascii "x", storageRequest := ascii "1Gi" } }
    (∃ c, (run .empty (o.withDryRun .server) (some store) none).result = .ok c) ∧
      (run .empty (o.withDryRun .none) (some store) none).result =
        .error (.refused (.alreadyExists (ascii "x"))) :=
  ⟨⟨_, rfl⟩, rfl⟩

end Create
end VolumeClaim
