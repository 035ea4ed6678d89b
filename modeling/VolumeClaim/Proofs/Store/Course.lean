import VolumeClaim.Proofs.FileTree.Hidden
import VolumeClaim.Proofs.Store.Creation

/-!
# What a submission depends on

How a store takes a claim is settled by the namespace and the name.  Nothing else in the claim
matters, and a check tells what will become of it, but for what only shows once the directories on
the way of the root are made: that there is no place for a file, or that the place is taken.

* `DiskStore.exists_course`, `Store.exists_course` the courses that a submission can take;
* `DiskStore.not_obstructed` a root without two dots is no obstruction.
-/

namespace VolumeClaim

/-- no place for a file could be made -/
def Store.Fault.IsOfDisk : Store.Fault → Prop
  | .blocked _ _ | .notOpened _ => True
  | _ => False

namespace DiskStore
open Text Location VolumeClaim.Path

/-- the path of the claim leads nowhere yet, but something stands at its place, or will as soon as
the directories on the way of the root are made -/
def Obstructed (d : DiskStore) (namespaceName name : Text) : Prop :=
  ∃ path, claimPath d.root namespaceName name = .ok path ∧
    (d.tree.Hides path ∨
      d.tree.find? path = none ∧ ofClaim d.root namespaceName name ∈ way d.root)

theorem not_obstructed {d : DiskStore} (h : d.tree.Grounded) (hzero : 0 ∉ d.root)
    (hup : ascii ".." ∉ split separator d.root) (namespaceName name : Text) :
    ¬ d.Obstructed namespaceName name := by
  rintro ⟨path, hpath, hhidden | ⟨-, hway⟩⟩
  · obtain ⟨hn, hname, rfl⟩ := claimPath_eq_ok_iff.mp hpath
    have hdirectory := zero_notMem_join hzero (zero_notMem_of_flaw? hn)
    exact FileTree.not_hides_join (FileTree.dots_notMem_split_join hup hn) (flaw?_fileName hname) h
      hdirectory hhidden
  · rw [← untilZero_eq_self hzero] at hup
    exact ofClaim_notMem_way hup _ _ hway

/-! ## Courses on disk -/

/-- the store with a file for the claim -/
def insert (d : DiskStore) (namespaceName : Text) (c : Claim) : DiskStore :=
  { d with tree := d.tree.addFile (ofClaim d.root namespaceName c.name) c.json }

/-- the course of every submission of a claim of the name: refused at once, or accepted by a
check, which can go wrong for good, or go well -/
inductive Course (d : DiskStore) (namespaceName name : Text) : Prop where
  | refused {fault : Store.Fault} (create : ∀ c checkOnly, c.name = name →
      d.create namespaceName c checkOnly = (.error fault, d))
    (unobstructed : ¬ d.Obstructed namespaceName name)
  | failed {fault : Store.Fault} {d' : DiskStore} (check : ∀ c, c.name = name →
      d.create namespaceName c true = (.ok (c.inNamespace namespaceName), d))
    (create : ∀ c, c.name = name → d.create namespaceName c false = (.error fault, d'))
    (cause : fault.IsOfDisk ∨ fault = .alreadyExists name ∧ d.Obstructed namespaceName name)
  | written {d' : DiskStore} (check : ∀ c, c.name = name →
      d.create namespaceName c true = (.ok (c.inNamespace namespaceName), d))
    (create : ∀ c, c.name = name → d.create namespaceName c false =
      (.ok (c.inNamespace namespaceName), d'.insert namespaceName (c.inNamespace namespaceName)))
    (root : d'.root = d.root) (files : d'.tree.files = d.tree.files)
    (vacant : d'.tree.contents? (ofClaim d'.root namespaceName name) = none)
    (unobstructed : ¬ d.Obstructed namespaceName name)

section
variable {d : DiskStore} {namespaceName name : Text}

theorem not_obstructed_of_refused (h : ∀ path, claimPath d.root namespaceName name = .ok path →
    ∃ place, d.tree.find? path = some place) : ¬ d.Obstructed namespaceName name := by
  rintro ⟨path, hpath, hnone⟩
  obtain ⟨place, hplace⟩ := h path hpath
  have hnone : d.tree.find? path = none := hnone.elim And.left And.left
  rw [hplace] at hnone
  cases hnone

variable {path : Text} (hpath : claimPath d.root namespaceName name = .ok path)
include hpath

/-- once the directories are made, an obstruction is there for all to see -/
theorem isOccupied_iff_obstructed {place : Location} {tree : FileTree}
    (hfind : d.tree.find? path = none) (hzero : 0 ∉ d.root)
    (made : d.tree.makeDirectories (d.directory namespaceName) = (.ok place, tree)) :
    tree.isOccupied (ofClaim d.root namespaceName name) = true ↔
      d.Obstructed namespaceName name := by
  have hn := (claimPath_eq_ok_iff.mp hpath).1
  have hplace : ofPath path = ofClaim d.root namespaceName name := by
    rw [ofPath_of_claimPath hpath, if_neg hzero]
  have hextends := d.tree.extends_makeDirectories (d.directory namespaceName)
  rw [made] at hextends
  constructor
  · intro h
    have hnew : d.tree.isDirectory (ofClaim d.root namespaceName name) = true ∨
        ofClaim d.root namespaceName name ∈ way (d.directory namespaceName) ∨
        d.tree.isFile (ofClaim d.root namespaceName name) = true := by
      rw [FileTree.isOccupied, Bool.or_eq_true] at h
      rcases h with h | h
      · rw [← or_assoc]
        refine .inl (FileTree.isDirectory_of_makeDirectories ?_)
        rw [made]
        exact h
      · unfold FileTree.isFile FileTree.contents? at h ⊢
        rw [files_of_makeDirectories made] at h
        exact .inr (.inr h)
    refine ⟨path, hpath, ?_⟩
    unfold FileTree.Hides FileTree.isOccupied
    rw [hplace, Bool.or_eq_true]
    rcases hnew with hdirectory | hway | hfile
    · exact .inl ⟨hfind, .inl hdirectory⟩
    · rcases (mem_way_directory hzero hn _).mp hway with hroot | hchild
      · exact .inr ⟨hfind, hroot⟩
      · exact absurd hchild (ofClaim_ne_child _ _ _ _)
    · exact .inl ⟨hfind, .inr hfile⟩
  · rintro ⟨path', hpath', ⟨-, hoccupied⟩ | ⟨-, hway⟩⟩
    · rw [ofPath_of_claimPath hpath', if_neg hzero] at hoccupied
      exact hextends.isOccupied hoccupied
    · have hreaches := FileTree.reaches_of_makeDirectories made
      have hdirectory := hreaches _ ((mem_way_directory hzero hn _).mpr (.inl hway))
      rw [FileTree.isOccupied, hdirectory, Bool.true_or]

theorem course_of_missing (hfind : d.tree.find? path = none) : d.Course namespaceName name := by
  have hn := (claimPath_eq_ok_iff.mp hpath).1
  have hcheck : ∀ c : Claim, c.name = name →
      d.create namespaceName c true = (.ok (c.inNamespace namespaceName), d) := by
    rintro c rfl
    exact create_check hpath hfind
  have hfailed : ∀ {fault : Store.Fault} {d' : DiskStore},
      (∀ contents, d.write namespaceName name contents = (.error fault, d')) →
      ∀ c, c.name = name → d.create namespaceName c false = (.error fault, d') := by
    rintro fault d' hwrite c rfl
    exact create_of_write_error hpath hfind (hwrite _)
  cases hmade : d.tree.makeDirectories (d.directory namespaceName) with
  | mk made tree =>
    cases made with
    | error obstacle =>
      have hwrite := fun contents => write_of_blocked name contents hmade
      exact .failed hcheck (hfailed hwrite) (.inl trivial)
    | ok place =>
      by_cases hzero : 0 ∈ d.root
      · have hwrite := fun contents => write_of_zero name contents hmade hzero
        exact .failed hcheck (hfailed hwrite) (.inl trivial)
      have hwrite := fun contents => write_of_made name contents hmade hn hzero
      have hobstructed := isOccupied_iff_obstructed hpath hfind hzero hmade
      by_cases hoccupied : tree.isOccupied (ofClaim d.root namespaceName name) = true
      · simp only [hoccupied, if_true] at hwrite
        exact .failed hcheck (hfailed hwrite) (.inr ⟨rfl, hobstructed.mp hoccupied⟩)
      · simp only [hoccupied, Bool.false_eq_true, if_false] at hwrite
        have hcreate : ∀ c : Claim, c.name = name → d.create namespaceName c false =
            (.ok (c.inNamespace namespaceName),
              insert ⟨d.root, tree⟩ namespaceName (c.inNamespace namespaceName)) := by
          rintro c rfl
          exact create_of_write_ok hpath hfind (hwrite _)
        have hvacant := FileTree.contents?_of_not_isOccupied (Bool.eq_false_iff.mpr hoccupied)
        exact .written hcheck hcreate rfl (files_of_makeDirectories hmade) hvacant
          (mt hobstructed.mpr hoccupied)

end

theorem exists_course (d : DiskStore) (namespaceName name : Text) :
    d.Course namespaceName name := by
  cases hpath : claimPath d.root namespaceName name with
  | error fault =>
    have hcreate : ∀ (c : Claim) checkOnly, c.name = name →
        d.create namespaceName c checkOnly = (.error (.badPath fault), d) := by
      rintro c checkOnly rfl
      exact create_of_claimPath_error hpath checkOnly
    refine .refused hcreate (not_obstructed_of_refused fun path hok => ?_)
    rw [hpath] at hok
    cases hok
  | ok path =>
    cases hfind : d.tree.find? path with
    | none => exact course_of_missing hpath hfind
    | some place =>
      have hcreate : ∀ (c : Claim) checkOnly, c.name = name →
          d.create namespaceName c checkOnly = (.error (.alreadyExists name), d) := by
        rintro c checkOnly rfl
        exact create_of_found hpath hfind checkOnly
      refine .refused hcreate (not_obstructed_of_refused fun path' hpath' => ?_)
      rw [hpath] at hpath'
      cases hpath'
      exact ⟨place, hfind⟩

end DiskStore

/-! ## Courses of either store -/

namespace Store

/-- only on disk can there be an obstruction -/
def Obstructed (s : Store) (namespaceName name : Text) : Prop :=
  match s with
  | .memory _ => False
  | .disk d => d.Obstructed namespaceName name

/-- the store with one more claim, under a namespace and its name -/
def insert (s : Store) (namespaceName : Text) (c : Claim) : Store :=
  match s with
  | .memory m => .memory ⟨m.claims ++ [(MemoryStore.key namespaceName c.name, c)]⟩
  | .disk d => .disk (d.insert namespaceName c)

/-- the store has nothing where a claim of the name would be put -/
def IsVacant (s : Store) (namespaceName name : Text) : Prop :=
  match s with
  | .memory m => m.get? namespaceName name = none
  | .disk d => d.tree.contents? (.ofClaim d.root namespaceName name) = none

/-- the course of every submission of a claim of the name -/
inductive Course (s : Store) (namespaceName name : Text) : Prop where
  | refused {fault : Fault} (create : ∀ c checkOnly, c.name = name →
      s.create namespaceName c checkOnly = (.error fault, s))
    (unobstructed : ¬ s.Obstructed namespaceName name)
  | failed {fault : Fault} {s' : Store} (check : ∀ c, c.name = name →
      s.create namespaceName c true = (.ok (c.inNamespace namespaceName), s))
    (create : ∀ c, c.name = name → s.create namespaceName c false = (.error fault, s'))
    (cause : fault.IsOfDisk ∨ fault = .alreadyExists name ∧ s.Obstructed namespaceName name)
  | added {s' : Store} (check : ∀ c, c.name = name →
      s.create namespaceName c true = (.ok (c.inNamespace namespaceName), s))
    (create : ∀ c, c.name = name → s.create namespaceName c false =
      (.ok (c.inNamespace namespaceName), s'.insert namespaceName (c.inNamespace namespaceName)))
    (same : s.Same s') (vacant : s'.IsVacant namespaceName name)
    (unobstructed : ¬ s.Obstructed namespaceName name)

theorem create_disk {d d' : DiskStore} {namespaceName : Text} {c : Claim} {checkOnly : Bool}
    {result : Except Fault Claim} (h : d.create namespaceName c checkOnly = (result, d')) :
    (Store.disk d).create namespaceName c checkOnly = (result, .disk d') := by
  unfold create
  simp only [h]

theorem exists_course (s : Store) (namespaceName name : Text) : s.Course namespaceName name := by
  cases s with
  | memory m =>
    cases hget : m.get? namespaceName name with
    | some x =>
      have hcreate : ∀ (c : Claim) checkOnly, c.name = name →
          (Store.memory m).create namespaceName c checkOnly =
            (.error (.alreadyExists name), .memory m) := by
        rintro c checkOnly rfl
        simp only [create, MemoryStore.create, hget]
      exact .refused hcreate id
    | none =>
      have hcheck : ∀ c : Claim, c.name = name → (Store.memory m).create namespaceName c true =
          (.ok (c.inNamespace namespaceName), .memory m) := by
        rintro c rfl
        simp only [create, MemoryStore.create, hget, if_true]
      have hcreate : ∀ c : Claim, c.name = name → (Store.memory m).create namespaceName c false =
          (.ok (c.inNamespace namespaceName),
            (Store.memory m).insert namespaceName (c.inNamespace namespaceName)) := by
        rintro c rfl
        simp only [create, MemoryStore.create, hget, Bool.false_eq_true, if_false]
        rfl
      exact .added hcheck hcreate (.memory m) hget id
  | disk d =>
    cases d.exists_course namespaceName name with
    | refused create unobstructed =>
      exact .refused (fun c checkOnly hc => create_disk (create c checkOnly hc)) unobstructed
    | failed check create cause =>
      exact .failed (fun c hc => create_disk (check c hc)) (fun c hc => create_disk (create c hc))
        cause
    | @written d' check create root files vacant unobstructed =>
      have hcreate : ∀ c : Claim, c.name = name → (Store.disk d).create namespaceName c false =
          (.ok (c.inNamespace namespaceName),
            (Store.disk d').insert namespaceName (c.inNamespace namespaceName)) :=
        fun c hc => create_disk (create c hc)
      exact .added (fun c hc => create_disk (check c hc)) hcreate (.disk root files) vacant
        unobstructed

end Store
end VolumeClaim
