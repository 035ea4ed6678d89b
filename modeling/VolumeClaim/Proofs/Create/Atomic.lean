import VolumeClaim.Proofs.Create.Run

/-!
# All or nothing

An attempt that goes wrong leaves every entry of the store as it was, and nothing is printed.  One
that goes well prints the claim that it answers, and adds the entry of that claim, and no other,
if it is no dry run.

* `Create.submitted_submit` what a submission does to the store, one case after the other;
* `Create.atomic_run`      what an attempt does.
-/

namespace VolumeClaim.Create

/-- there is no store, or it has the same entries -/
inductive Unchanged : Option Store → Option Store → Prop where
  | none : Unchanged .none .none
  | some {start stop : Store} (same : start.Same stop) : Unchanged (.some start) (.some stop)

theorem Unchanged.refl (store : Option Store) : Unchanged store store := by
  cases store with
  | none => exact .none
  | some s => exact .some (.refl s)

/-- the store has one entry more, that of the claim, which can be looked up now, as can all that
could be before -/
structure Created (namespaceName : Text) (c : Claim) (start stop : Store) : Prop where
  adds : Store.Adds namespaceName c start stop
  get : stop.get namespaceName c.name = .ok (some c)
  kept : ∀ other name x, start.get other name = .ok (some x) → stop.get other name = .ok (some x)

/-- the outcomes of a submission -/
inductive Submitted (dryRun : DryRun) (store : Option Store) (space : NamespaceChoice) (c : Claim) :
    Except Fault Claim × Option Store → Prop where
  | failed {fault : Fault} {store' : Option Store} (unchanged : Unchanged store store') :
    Submitted dryRun store space c (.error fault, store')
  | checked {x : Claim} (dry : dryRun ≠ .none) : Submitted dryRun store space c (.ok x, store)
  | created {x : Claim} {start stop : Store} (real : dryRun = .none) (had : store = some start)
    (name : x.name = c.name) (created : Created space.name x start stop) :
    Submitted dryRun store space c (.ok x, some stop)

theorem submitted_submit (dryRun : DryRun) (store : Option Store) (space : NamespaceChoice)
    (c : Claim) : Submitted dryRun store space c (submit dryRun store space c) := by
  by_cases hclient : dryRun = .client
  · subst hclient
    rw [submit_client]
    exact .checked (by decide)
  · cases store with
    | none =>
      rw [submit_none hclient]
      exact .failed .none
    | some s =>
      have hcreation := s.creation_create space.name c (dryRun = .server)
      rw [submit_some hclient]
      generalize s.create space.name c (dryRun = .server) = p at hcreation
      cases hcreation with
      | refused same => exact .failed (.some same)
      | checked check =>
        have hserver : dryRun = .server := of_decide_eq_true check
        subst hserver
        exact .checked (by decide)
      | added check adds get kept =>
        have hserver : dryRun ≠ .server := of_decide_eq_false check
        have hnone : dryRun = .none := by
          cases dryRun with
          | none => rfl
          | client => exact absurd rfl hclient
          | server => exact absurd rfl hserver
        exact .created hnone rfl rfl ⟨adds, get, fun _ _ _ => kept⟩

/-- what an attempt leaves behind, whether it went well or not -/
structure Atomic (s : Settings) (o : Options) (store : Option Store) (attempt : Attempt) : Prop where
  failed : ∀ fault, attempt.result = .error fault →
    attempt.output = .nothing ∧ Unchanged store attempt.store
  printed : ∀ c, attempt.result = .ok c → attempt.output = .print o.format o.dryRun.operation c
  checked : ∀ c, attempt.result = .ok c → o.dryRun ≠ .none → attempt.store = store
  created : ∀ c, attempt.result = .ok c → o.dryRun = .none → c.name = o.request.name ∧
    ∃ start stop, store = some start ∧ attempt.store = some stop ∧
      Created (resolveNamespace o s).name c start stop

/-- **An attempt that fails, wherever it does, prints nothing and changes no entry of the store;
one that goes well prints the claim that it answers and adds the entry of that claim, or changes
nothing if it is a dry run.** -/
theorem atomic_run (s : Settings) (o : Options) (store : Option Store) (logger : Option Logger) :
    Atomic s o store (run s o store logger) := by
  have hran := ran_run s o store logger
  generalize run s o store logger = attempt at hran
  cases hran with
  | undrafted drafted =>
    exact ⟨fun _ _ => ⟨rfl, .refl store⟩, nofun, nofun, nofun⟩
  | @rejected d fault store' entries logger' drafted submitted =>
    have hsubmitted := submitted_submit o.dryRun store (resolveNamespace o s) (claimOf o d)
    rw [submitted] at hsubmitted
    cases hsubmitted with
    | failed unchanged => exact ⟨fun _ _ => ⟨rfl, unchanged⟩, nofun, nofun, nofun⟩
  | @answered d c store' entries logger' drafted submitted =>
    have hsubmitted := submitted_submit o.dryRun store (resolveNamespace o s) (claimOf o d)
    rw [submitted] at hsubmitted
    refine ⟨nofun, ?_, ?_, ?_⟩
    · rintro x hx
      cases hx
      rfl
    · intro x hx hdry
      cases hsubmitted with
      | checked dry => rfl
      | created real => exact absurd real hdry
    · intro x hx hreal
      cases hx
      cases hsubmitted with
      | checked dry => exact absurd hreal dry
      | created real had name created =>
        exact ⟨name.trans (name_claimOf drafted), _, _, had, rfl, created⟩

end VolumeClaim.Create
