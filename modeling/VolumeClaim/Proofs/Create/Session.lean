import VolumeClaim.Proofs.Create.Run

/-!
# Sessions

A session is any number of attempts on one store, one after another, each with its own settings
and options, and each going well or not.

* `Create.holds_session`   a store ends up with what it had and with what was answered for good;
* `Create.stored_claims_sound` so all that gets into an empty store is sound.
-/

namespace VolumeClaim.Create

structure Call where
  settings : Settings
  options : Options

namespace Call

def space (call : Call) : NamespaceChoice := resolveNamespace call.options call.settings

def attempt (call : Call) (store : Option Store) (logger : Option Logger) : Attempt :=
  run call.settings call.options store logger

end Call

/-- every call with what came of it, and the store in the end -/
def session : List Call → Option Store → Option Logger → List (Call × Attempt) × Option Store
  | [], store, _ => ([], store)
  | call :: calls, store, logger =>
    let attempt := call.attempt store logger
    let (later, stop) := session calls attempt.store attempt.logger
    ((call, attempt) :: later, stop)

theorem session_cons (call : Call) (calls : List Call) (store : Option Store)
    (logger : Option Logger) : session (call :: calls) store logger =
      ((call, call.attempt store logger) ::
        (session calls (call.attempt store logger).store (call.attempt store logger).logger).1,
      (session calls (call.attempt store logger).store (call.attempt store logger).logger).2) := rfl

theorem map_fst_session (calls : List Call) (store : Option Store) (logger : Option Logger) :
    (session calls store logger).1.map Prod.fst = calls := by
  induction calls generalizing store logger with
  | nil => rfl
  | cons call calls ih =>
    rw [session_cons, List.map_cons, ih]

theorem exists_attempt_of_mem_session {calls : List Call} {store : Option Store}
    {logger : Option Logger} {e : Call × Attempt} (h : e ∈ (session calls store logger).1) :
    ∃ store logger, e.2 = e.1.attempt store logger := by
  induction calls generalizing store logger with
  | nil => exact absurd h List.not_mem_nil
  | cons call calls ih =>
    rw [session_cons] at h
    rcases List.mem_cons.mp h with rfl | h
    · exact ⟨store, logger, rfl⟩
    · exact ih h

/-- the call and its outcome put the claim into the store for good -/
def Stores (e : Call × Attempt) (c : Claim) : Prop :=
  e.1.options.dryRun = .none ∧ e.2.result = .ok c

theorem holds_session (calls : List Call) (start : Store) (logger : Option Logger) :
    ∃ stop, (session calls (some start) logger).2 = some stop ∧ ∀ c, stop.Holds c ↔
      start.Holds c ∨ ∃ e ∈ (session calls (some start) logger).1, Stores e c := by
  induction calls generalizing start logger with
  | nil => exact ⟨start, rfl, fun c => by simp [session]⟩
  | cons call calls ih =>
    obtain ⟨next, hnext, hstep⟩ := holds_run call.settings call.options start logger
    obtain ⟨stop, hstop, hrest⟩ := ih next (call.attempt (some start) logger).logger
    have hattempt : (call.attempt (some start) logger).store = some next := hnext
    refine ⟨stop, ?_, fun c => ?_⟩
    · rw [session_cons, hattempt]
      exact hstop
    · rw [session_cons, hattempt, hrest, hstep, List.exists_mem_cons_iff, or_assoc]
      rfl

/-- **Whatever gets into an empty store, in any number of attempts that go well or not, is a sound
claim, as it was answered to a call for good, in the namespace of that call; and all that is
answered so is there.** -/
theorem stored_claims_sound (calls : List Call) (start : Store) (logger : Option Logger)
    (empty : ∀ c, ¬ start.Holds c) :
    ∃ stop, (session calls (some start) logger).2 = some stop ∧
      (session calls (some start) logger).1.map Prod.fst = calls ∧
      (∀ c, stop.Holds c → c.Sound ∧ ∃ e ∈ (session calls (some start) logger).1, Stores e c ∧
        c.name = e.1.options.request.name ∧
        c.metadataOrEmpty.namespaceName = e.1.space.name) ∧
      (∀ e ∈ (session calls (some start) logger).1, ∀ c, Stores e c → stop.Holds c) ∧
      ∀ namespaceName name c, stop.get namespaceName name = .ok (some c) → stop.Holds c := by
  obtain ⟨stop, hstop, hholds⟩ := holds_session calls start logger
  refine ⟨stop, hstop, map_fst_session calls _ logger, fun c hc => ?_,
    fun e he c hc => (hholds c).mpr (.inr ⟨e, he, hc⟩), fun _ _ _ hget => Store.holds_of_get hget⟩
  obtain ⟨e, he, hstores⟩ := ((hholds c).mp hc).resolve_left (empty c)
  obtain ⟨store, logger, hattempt⟩ := exists_attempt_of_mem_session he
  have hresult : (run e.1.settings e.1.options store logger).result = .ok c := by
    rw [← hstores.2, hattempt]
    rfl
  obtain ⟨hsound, hname, hspace⟩ := sound_of_run _ _ _ _ hresult
  have hclient : e.1.options.dryRun ≠ .client := by
    rw [hstores.1]
    decide
  exact ⟨hsound, e, he, hstores, hname, hspace hclient⟩

/-- one gibibyte is stored on an empty disk, and the next attempt is refused: its limit is no
greater than its request -/
theorem stored_claims_sound_gibi :
    let options : Options := { Options.standard with
      saveConfig := true
      request := { Request.empty with name := ascii "data", storageRequest := ascii "1Gi" } }
    let limited : Options := { options with
      request := { options.request with name := ascii "more", storageLimit := ascii "1024Mi" } }
    let calls : List Call := [⟨.empty, options⟩, ⟨.empty, limited⟩]
    ∃ stop c, (session calls (some (.disk ⟨ascii "r", .empty⟩)) none).2 = some stop ∧
      (session calls (some (.disk ⟨ascii "r", .empty⟩)) none).1.map
        (fun e => e.2.result.toOption.isSome) = [true, false] ∧
      stop.Holds c ∧ c.name = ascii "data" ∧
      c.metadataOrEmpty.namespaceName = ascii "default" ∧ ∀ x, stop.Holds x → x.Sound := by
  intro options limited calls
  have hempty := Store.not_holds_of_forall_not_isWithin (d := ⟨ascii "r", .empty⟩) nofun
  obtain ⟨stop, hstop, -, hsound, hstored, -⟩ := stored_claims_sound calls _ none hempty
  have hc := hstored _ List.mem_cons_self _ ⟨rfl, rfl⟩
  exact ⟨stop, _, hstop, rfl, hc, rfl, rfl, fun x hx => (hsound x hx).1⟩

end VolumeClaim.Create
