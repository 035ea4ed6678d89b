import VolumeClaim.Proofs.Store.Disk
import VolumeClaim.Proofs.Store.Memory

/-!
# One store in place of the other

To calls about components, a store in memory and a store on disk give the same answers, both those
of `History.reply`.  It takes a root that a claim's file has nothing to do with: no file on its
way, no zero byte, and no way through the place of a claim and out of it again.

* `Store.stores_interchangeable` the answers are the same, call by call;
* `Store.roots_tell_stores_apart` but not over every root.
-/

namespace VolumeClaim

theorem MemoryStore.answer_eq_reply {m : MemoryStore} {past : Store.History}
    (h : m.Recalls past.created) {call : Store.Call} (hcall : byte '/' ∉ call.pair.1)
    (hpast : ∀ e ∈ past.created, byte '/' ∉ e.1.1) :
    ((Store.memory m).answer call).1 = past.reply call := by
  have hget : m.get? call.pair.1 call.pair.2 = past.first? call.pair.1 call.pair.2 :=
    h.get?_eq_lookup fun e he hsame => eq_of_sharesKey (hpast e he) hcall hsame
  cases call with
  | get namespaceName name => exact congrArg (fun x => Store.Reply.found (.ok x)) hget
  | create namespaceName c checkOnly =>
    have hget : m.get? namespaceName c.name = past.first? namespaceName c.name := hget
    show Store.Reply.created (m.create namespaceName c checkOnly).1 = .created _
    rw [fst_create, hget]

namespace Store
open Location (ofClaim way)
open VolumeClaim.Path (IsComponent flaw?)

/-- the pair has a place of its own below the root, where the root's own path does not lead -/
structure Fits (root : Text) (p : Text × Text) : Prop where
  space : IsComponent p.1
  name : IsComponent p.2
  aside : ofClaim root p.1 p.2 ∉ way root

section
variable {root : Text} {start : FileTree} (hzero : 0 ∉ root) (hempty : start.IsEmptyAt root)
variable (clear : ∀ l ∈ way root, start.isFile l = false)
include hzero hempty clear

theorem disk_answer_eq_reply {tree : FileTree} {past : History}
    (h : DiskStore.Recalls root start tree past.created) {call : Call}
    (hcall : Fits root call.pair) :
    ((Store.disk ⟨root, tree⟩).answer call).1 = past.reply call := by
  have hspace := Path.flaw?_eq_none_iff_isComponent.mpr hcall.space
  have hname := Path.flaw?_eq_none_iff_isComponent.mpr hcall.name
  cases call with
  | get namespaceName name =>
    have hpath : Path.claimPath root namespaceName name = .ok _ :=
      Path.claimPath_eq_ok_iff.mpr ⟨hspace, hname, rfl⟩
    show Reply.found (DiskStore.get ⟨root, tree⟩ namespaceName name) = .found (.ok _)
    cases hfirst : past.first? namespaceName name with
    | some c => rw [h.get_of_created hzero hempty hpath hfirst]
    | none =>
      rcases h.get_of_not_created hzero hempty hpath hfirst with hget | ⟨hway, -⟩
      · rw [hget]
      · exact absurd hway hcall.aside
  | create namespaceName c checkOnly =>
    have hpath : Path.claimPath root namespaceName c.name = .ok _ :=
      Path.claimPath_eq_ok_iff.mpr ⟨hspace, hname, rfl⟩
    show Reply.created (DiskStore.create ⟨root, tree⟩ namespaceName c checkOnly).1 = .created _
    cases hfirst : past.first? namespaceName c.name with
    | some x =>
      rw [h.create_of_created hzero hempty hpath checkOnly hfirst]
      rfl
    | none =>
      rcases h.create_of_not_created hzero hempty hpath checkOnly hfirst with
        hok | ⟨hway, -⟩ | ⟨⟨l, hl, hfile⟩, -⟩
      · rw [hok]
        rfl
      · exact absurd hway hcall.aside
      · rw [clear l hl] at hfile
        cases hfile

/-- the two stores go on alike, as long as they recall the same history -/
theorem serve_disk_eq_serve_memory {calls : List Call} (fits : ∀ call ∈ calls, Fits root call.pair)
    {tree : FileTree} {m : MemoryStore} {past : History}
    (hdisk : DiskStore.Recalls root start tree past.created) (hmemory : m.Recalls past.created) :
    ((Store.disk ⟨root, tree⟩).serve calls).1 = ((Store.memory m).serve calls).1 := by
  induction calls generalizing tree m past with
  | nil => rfl
  | cons call calls ih =>
    have hcall := fits call List.mem_cons_self
    have hslash : byte '/' ∉ call.pair.1 := hcall.space.2.1.1
    have hslashes : ∀ e ∈ past.created, byte '/' ∉ e.1.1 := fun e he =>
      Path.separator_notMem_of_flaw? (hdisk.components e he).1
    have hreply := disk_answer_eq_reply hzero hempty clear hdisk hcall
    have hreply' := MemoryStore.answer_eq_reply hmemory hslash hslashes
    obtain ⟨tree', htree, hdisk'⟩ :=
      DiskStore.exists_recalls_answer hzero hempty hdisk call
    obtain ⟨m', hm, hmemory'⟩ := MemoryStore.exists_recalls_answer hmemory call
    rw [hreply] at hdisk'
    rw [hreply'] at hmemory'
    rw [serve_cons, serve_cons, hreply, hreply', htree, hm]
    have hrest := ih (fun c hc => fits c (List.mem_cons_of_mem _ hc)) hdisk' hmemory'
    exact congrArg (List.cons (call, past.reply call)) hrest

/-- **To any calls about components, a store in memory that was empty and a store on disk over a
root with nothing in it give the same answers.** -/
theorem stores_interchangeable (calls : List Call) (fits : ∀ call ∈ calls, Fits root call.pair) :
    ((Store.disk ⟨root, start⟩).serve calls).1 = ((Store.memory .empty).serve calls).1 := by
  have hdisk : DiskStore.Recalls root start start (History.created []) :=
    DiskStore.recalls_start root start
  exact serve_disk_eq_serve_memory hzero hempty clear fits hdisk MemoryStore.recalls_empty

end

/-- a claim is created, refused the second time and found, on disk as in memory -/
theorem stores_interchangeable_thrice :
    let c : Claim := { Claim.empty with metadata := some { Metadata.empty with name := ascii "x" } }
    let calls : List Call := [.create (ascii "a") c false, .create (ascii "a") c true,
      .get (ascii "a") (ascii "x")]
    ((Store.disk ⟨ascii "r", .empty⟩).serve calls).1 =
        ((Store.memory .empty).serve calls).1 ∧
      ((Store.disk ⟨ascii "r", .empty⟩).serve calls).1.map Prod.snd =
        [.created (.ok (c.inNamespace (ascii "a"))),
          .created (.error (.alreadyExists (ascii "x"))),
          .found (.ok (some (c.inNamespace (ascii "a"))))] := by
  intro c calls
  have hfits : Fits (ascii "r") (ascii "a", ascii "x") :=
    ⟨by decide, by decide, Location.ofClaim_notMem_way (by decide) _ _⟩
  refine ⟨stores_interchangeable (by decide) (FileTree.isEmptyAt_empty _) (fun _ _ => rfl) calls ?_,
    rfl⟩
  intro call hcall
  simp only [calls, List.mem_cons, List.not_mem_nil, or_false] at hcall
  rcases hcall with rfl | rfl | rfl <;> exact hfits

/-- a root whose path leads through the place of the claim, so that its directories are made there,
and a root with a zero byte, which ends all paths -/
theorem roots_tell_stores_apart :
    let c : Claim := { Claim.empty with metadata := some { Metadata.empty with name := ascii "x" } }
    let through := ascii "a/x.json/../.."
    let cut := ascii "." ++ [0]
    IsComponent (ascii "a") ∧ IsComponent (ascii "x") ∧
      FileTree.empty.IsEmptyAt through ∧ FileTree.empty.IsEmptyAt cut ∧
      (∀ checkOnly, ((Store.memory .empty).create (ascii "a") c checkOnly).1 =
        .ok (c.inNamespace (ascii "a"))) ∧
      ((Store.disk ⟨through, .empty⟩).create (ascii "a") c false).1 =
        .error (.alreadyExists (ascii "x")) ∧
      ((Store.disk ⟨cut, .empty⟩).create (ascii "a") c true).1 =
        .error (.alreadyExists (ascii "x")) := by
  intro c through cut
  refine ⟨by decide, by decide, FileTree.isEmptyAt_empty _, FileTree.isEmptyAt_empty _, ?_,
    rfl, rfl⟩
  intro checkOnly
  cases checkOnly <;> rfl

end Store
end VolumeClaim
