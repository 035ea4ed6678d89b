import VolumeClaim.Claim.RoundTrip
import VolumeClaim.Proofs.FileTree.Reach
import VolumeClaim.Store

/-!
# What can come of a submission

A store in memory adds a claim or leaves its list as it is; a store on disk adds one file, at the
place of the claim, or leaves all files as they are.

* `MemoryStore.creation_create`, `DiskStore.creation_create` the outcomes, one by one;
* `DiskStore.get_eq_some`  where a claim that is looked up comes from;
* `Store.creation_create`  the outcomes for either store: what is added can be looked up, and what
  could be looked up still can;
* `Store.eq_of_create`     the answer is the claim, in the namespace of the submission.
-/

namespace VolumeClaim

/-- the outcomes of submitting a claim to a store in memory -/
inductive MemoryStore.Creation (m : MemoryStore) (namespaceName : Text) (c : Claim)
    (checkOnly : Bool) : Except Store.Fault Claim × MemoryStore → Prop where
  | taken {other : Claim} (found : m.get? namespaceName c.name = some other) :
    Creation m namespaceName c checkOnly (.error (.alreadyExists c.name), m)
  | checked (vacant : m.get? namespaceName c.name = none) (check : checkOnly = true) :
    Creation m namespaceName c checkOnly (.ok (c.inNamespace namespaceName), m)
  | added (vacant : m.get? namespaceName c.name = none) (check : checkOnly = false) :
    Creation m namespaceName c checkOnly (.ok (c.inNamespace namespaceName),
      ⟨m.claims ++ [(key namespaceName c.name, c.inNamespace namespaceName)]⟩)

theorem MemoryStore.creation_create (m : MemoryStore) (namespaceName : Text) (c : Claim)
    (checkOnly : Bool) :
    m.Creation namespaceName c checkOnly (m.create namespaceName c checkOnly) := by
  unfold create
  cases h : m.get? namespaceName c.name with
  | some other => exact .taken h
  | none =>
    cases hcheck : checkOnly with
    | true => exact .checked h rfl
    | false => exact .added h rfl

theorem MemoryStore.get?_append_of_some {m : MemoryStore} {namespaceName name : Text} {c : Claim}
    (h : m.get? namespaceName name = some c) (added : List (Text × Claim)) :
    get? ⟨m.claims ++ added⟩ namespaceName name = some c := by
  unfold get? at h ⊢
  rw [List.lookup_append, h, Option.some_or]

theorem MemoryStore.get?_append_self {m : MemoryStore} {namespaceName name : Text}
    (h : m.get? namespaceName name = none) (c : Claim) :
    get? ⟨m.claims ++ [(key namespaceName name, c)]⟩ namespaceName name = some c := by
  unfold get? at h ⊢
  rw [List.lookup_append, h, Option.none_or, List.lookup_cons_self]

namespace DiskStore

/-! ## Writing a file -/

/-- the outcomes of writing a file -/
inductive Writing (d : DiskStore) (namespaceName name contents : Text) :
    Except Store.Fault Unit × DiskStore → Prop where
  | blocked {obstacle : FileTree.Obstacle} {tree : FileTree}
    (made : d.tree.makeDirectories (d.directory namespaceName) = (.error obstacle, tree)) :
    Writing d namespaceName name contents
      (.error (.blocked (d.directory namespaceName) obstacle), { d with tree := tree })
  | notOpened {place : Location} {tree : FileTree}
    (made : d.tree.makeDirectories (d.directory namespaceName) = (.ok place, tree))
    (zero : 0 ∈ d.root) :
    Writing d namespaceName name contents (.error (.notOpened (d.directory namespaceName)),
      { d with tree := tree.removeDirectory (d.directory namespaceName) })
  | taken {place : Location} {tree : FileTree}
    (made : d.tree.makeDirectories (d.directory namespaceName) = (.ok place, tree))
    (zero : 0 ∉ d.root)
    (occupied : tree.isOccupied (.ofClaim d.root namespaceName name) = true) :
    Writing d namespaceName name contents
      (.error (.alreadyExists name), { d with tree := tree })
  | written {place : Location} {tree : FileTree}
    (made : d.tree.makeDirectories (d.directory namespaceName) = (.ok place, tree))
    (zero : 0 ∉ d.root)
    (vacant : tree.isOccupied (.ofClaim d.root namespaceName name) = false) :
    Writing d namespaceName name contents (.ok (),
      { d with tree := tree.addFile (.ofClaim d.root namespaceName name) contents })

section
variable {d : DiskStore} {namespaceName : Text} {tree : FileTree} (name contents : Text)

theorem write_of_blocked {obstacle : FileTree.Obstacle}
    (made : d.tree.makeDirectories (d.directory namespaceName) = (.error obstacle, tree)) :
    d.write namespaceName name contents =
      (.error (.blocked (d.directory namespaceName) obstacle), { d with tree := tree }) := by
  simp only [write, made]

variable {place : Location}
variable (made : d.tree.makeDirectories (d.directory namespaceName) = (.ok place, tree))
include made

theorem write_of_zero (zero : 0 ∈ d.root) : d.write namespaceName name contents =
    (.error (.notOpened (d.directory namespaceName)),
      { d with tree := tree.removeDirectory (d.directory namespaceName) }) := by
  simp only [write, made, if_pos zero]

theorem write_of_made (hn : Path.flaw? namespaceName = none) (zero : 0 ∉ d.root) :
    d.write namespaceName name contents =
      if tree.isOccupied (.ofClaim d.root namespaceName name) then
        (.error (.alreadyExists name), { d with tree := tree })
      else (.ok (),
        { d with tree := tree.addFile (.ofClaim d.root namespaceName name) contents }) := by
  have hplace : place.child (Path.fileName name) = .ofClaim d.root namespaceName name := by
    rw [FileTree.eq_of_makeDirectories made, directory, Location.ofPath_directory zero hn]
    rfl
  simp only [write, made, if_neg zero, FileTree.publish_eq (tree.isOccupied_unusedStamp place _),
    hplace]
  split <;> rfl

end

theorem writing_write (d : DiskStore) {namespaceName : Text} (hn : Path.flaw? namespaceName = none)
    (name contents : Text) :
    d.Writing namespaceName name contents (d.write namespaceName name contents) := by
  cases hmade : d.tree.makeDirectories (d.directory namespaceName) with
  | mk made tree =>
    cases made with
    | error obstacle =>
      rw [write_of_blocked name contents hmade]
      exact .blocked hmade
    | ok l =>
      by_cases hzero : 0 ∈ d.root
      · rw [write_of_zero name contents hmade hzero]
        exact .notOpened hmade hzero
      · rw [write_of_made name contents hmade hn hzero]
        cases hoccupied : tree.isOccupied (.ofClaim d.root namespaceName name) with
        | true => exact .taken hmade hzero hoccupied
        | false => exact .written hmade hzero hoccupied

section
variable {d d' : DiskStore} {namespaceName name contents : Text}

theorem files_of_makeDirectories {made : Except FileTree.Obstacle Location} {tree : FileTree}
    {path : Text} (h : d.tree.makeDirectories path = (made, tree)) :
    tree.files = d.tree.files := by
  have hfiles := d.tree.files_makeDirectories path
  rw [h] at hfiles
  exact hfiles

theorem Writing.root {result : Except Store.Fault Unit}
    (h : d.Writing namespaceName name contents (result, d')) : d'.root = d.root := by
  cases h <;> rfl

theorem Writing.files_of_error {fault : Store.Fault}
    (h : d.Writing namespaceName name contents (.error fault, d')) :
    d'.tree.files = d.tree.files := by
  cases h with
  | blocked made => exact files_of_makeDirectories made
  | notOpened made zero =>
    exact (FileTree.files_removeDirectory _ _).trans (files_of_makeDirectories made)
  | taken made zero occupied => exact files_of_makeDirectories made

section
variable (h : d.Writing namespaceName name contents (.ok (), d'))
include h

theorem Writing.contents?_of_ok :
    d.tree.contents? (.ofClaim d.root namespaceName name) = none := by
  cases h with
  | written made zero vacant =>
    have hvacant := FileTree.contents?_of_not_isOccupied vacant
    unfold FileTree.contents? at hvacant ⊢
    rw [← files_of_makeDirectories made]
    exact hvacant

theorem Writing.files_of_ok : d'.tree.files =
    d.tree.files ++ [(.ofClaim d.root namespaceName name, contents)] := by
  cases h with
  | written made zero vacant => exact congrArg (· ++ _) (files_of_makeDirectories made)

theorem Writing.contents?_self_of_ok :
    d'.tree.contents? (.ofClaim d.root namespaceName name) = some contents := by
  cases h with
  | written made zero vacant =>
    exact FileTree.contents?_addFile_self (FileTree.contents?_of_not_isOccupied vacant) contents

theorem Writing.extends_of_ok : d.tree.Extends d'.tree := by
  cases h with
  | @written place tree made zero vacant =>
    have hmade := d.tree.extends_makeDirectories (d.directory namespaceName)
    rw [made] at hmade
    exact hmade.trans (tree.extends_addFile _ _)

theorem Writing.reaches_of_ok : 0 ∉ d.root ∧ d'.tree.Reaches (d.directory namespaceName) := by
  cases h with
  | written made zero vacant =>
    have hreaches := FileTree.reaches_of_makeDirectories made
    exact ⟨zero, hreaches⟩

end

end

/-! ## Looking up a claim -/

section
variable {d : DiskStore} {namespaceName name path : Text}
variable (hpath : Path.claimPath d.root namespaceName name = .ok path)
include hpath

theorem get_of_find?_none (h : d.tree.find? path = none) :
    d.get namespaceName name = .ok none := by
  refine bind_eq_ok_iff.mpr ⟨path, mapError_eq_ok_iff.mpr hpath, ?_⟩
  rw [h]

theorem get_of_contents? {l : Location} {contents : Text} {c : Claim}
    (h : d.tree.find? path = some l) (hl : d.tree.contents? l = some contents)
    (hc : Claim.ofJson contents = .ok c) : d.get namespaceName name = .ok (some c) := by
  refine bind_eq_ok_iff.mpr ⟨path, mapError_eq_ok_iff.mpr hpath, ?_⟩
  simp only [h, hl, hc]

theorem get_of_contents?_none {l : Location} (h : d.tree.find? path = some l)
    (hl : d.tree.contents? l = none) : d.get namespaceName name = .error .notAFile := by
  refine bind_eq_error_iff.mpr (.inr ⟨path, mapError_eq_ok_iff.mpr hpath, ?_⟩)
  simp only [h, hl]

/-- once the directory of its namespace is there, a claim's path leads to its place -/
theorem find?_of_reaches (hzero : 0 ∉ d.root) (h : d.tree.Reaches (d.directory namespaceName)) :
    d.tree.find? path = (some (.ofClaim d.root namespaceName name)).filter d.tree.isOccupied := by
  obtain ⟨hn, hname, rfl⟩ := Path.claimPath_eq_ok_iff.mp hpath
  have hfile := Path.flaw?_fileName hname
  have hdirectory := Path.zero_notMem_join hzero (Path.zero_notMem_of_flaw? hn)
  have hfind := FileTree.find?_join h hdirectory (Path.zero_notMem_of_flaw? hfile)
    (Path.separator_notMem_of_flaw? hfile) (Path.flaw?_eq_none_iff.mp hfile).1
  rw [Location.follow_of_flaw?_eq_none hfile, directory, Location.ofPath_directory hzero hn] at hfind
  exact hfind

end

theorem get_eq_some {d : DiskStore} {namespaceName name : Text} {c : Claim}
    (h : d.get namespaceName name = .ok (some c)) : ∃ path l contents,
      Path.claimPath d.root namespaceName name = .ok path ∧ d.tree.find? path = some l ∧
      d.tree.contents? l = some contents ∧ Claim.ofJson contents = .ok c := by
  obtain ⟨path, hpath, h⟩ := bind_eq_ok_iff.mp h
  have hpath := mapError_eq_ok_iff.mp hpath
  cases hfind : d.tree.find? path with
  | none =>
    rw [hfind] at h
    cases h
  | some l =>
    simp only [hfind] at h
    cases hcontents : d.tree.contents? l with
    | none =>
      rw [hcontents] at h
      cases h
    | some contents =>
      simp only [hcontents] at h
      cases hclaim : Claim.ofJson contents with
      | error fault =>
        rw [hclaim] at h
        cases h
      | ok c' =>
        rw [hclaim] at h
        cases h
        exact ⟨path, l, contents, hpath, hfind, hcontents, hclaim⟩

/-- what can be read can be read again when there is more -/
theorem get_of_extends {d d' : DiskStore} {namespaceName name : Text} {c : Claim}
    (root : d'.root = d.root) (h : d.tree.Extends d'.tree)
    (hget : d.get namespaceName name = .ok (some c)) :
    d'.get namespaceName name = .ok (some c) := by
  obtain ⟨path, l, contents, hpath, hfind, hcontents, hclaim⟩ := get_eq_some hget
  rw [← root] at hpath
  exact get_of_contents? hpath (h.find? hfind) (h.file l contents hcontents) hclaim

/-! ## Submitting a claim -/

/-- the outcomes of submitting a claim to a store on disk -/
inductive Creation (d : DiskStore) (namespaceName : Text) (c : Claim) (checkOnly : Bool) :
    Except Store.Fault Claim × DiskStore → Prop where
  | badPath {fault : Path.Fault}
    (refused : Path.claimPath d.root namespaceName c.name = .error fault) :
    Creation d namespaceName c checkOnly (.error (.badPath fault), d)
  | found {path : Text} {place : Location}
    (hpath : Path.claimPath d.root namespaceName c.name = .ok path)
    (found : d.tree.find? path = some place) :
    Creation d namespaceName c checkOnly (.error (.alreadyExists c.name), d)
  | checked {path : Text} (hpath : Path.claimPath d.root namespaceName c.name = .ok path)
    (missing : d.tree.find? path = none) (check : checkOnly = true) :
    Creation d namespaceName c checkOnly (.ok (c.inNamespace namespaceName), d)
  | failed {path : Text} {fault : Store.Fault} {d' : DiskStore}
    (hpath : Path.claimPath d.root namespaceName c.name = .ok path)
    (missing : d.tree.find? path = none) (check : checkOnly = false)
    (writing : d.Writing namespaceName c.name (c.inNamespace namespaceName).json
      (.error fault, d')) :
    Creation d namespaceName c checkOnly (.error fault, d')
  | written {path : Text} {d' : DiskStore}
    (hpath : Path.claimPath d.root namespaceName c.name = .ok path)
    (missing : d.tree.find? path = none) (check : checkOnly = false)
    (writing : d.Writing namespaceName c.name (c.inNamespace namespaceName).json (.ok (), d')) :
    Creation d namespaceName c checkOnly (.ok (c.inNamespace namespaceName), d')

section
variable {d : DiskStore} {namespaceName path : Text} {c : Claim}

theorem create_of_claimPath_error {fault : Path.Fault}
    (h : Path.claimPath d.root namespaceName c.name = .error fault) (checkOnly : Bool) :
    d.create namespaceName c checkOnly = (.error (.badPath fault), d) := by
  have hpath : d.path namespaceName c.name = .error (.badPath fault) :=
    mapError_eq_error_iff.mpr ⟨fault, h, rfl⟩
  unfold create
  rw [hpath]

variable (hpath : Path.claimPath d.root namespaceName c.name = .ok path)
include hpath

theorem create_of_found {place : Location} (hfind : d.tree.find? path = some place)
    (checkOnly : Bool) :
    d.create namespaceName c checkOnly = (.error (.alreadyExists c.name), d) := by
  have hpath' : d.path namespaceName c.name = .ok path := mapError_eq_ok_iff.mpr hpath
  unfold create
  simp only [hpath', hfind, Option.isSome_some, if_true]

variable (hfind : d.tree.find? path = none)
include hfind

theorem create_check :
    d.create namespaceName c true = (.ok (c.inNamespace namespaceName), d) := by
  have hpath' : d.path namespaceName c.name = .ok path := mapError_eq_ok_iff.mpr hpath
  unfold create
  simp only [hpath', hfind, Option.isSome_none, Bool.false_eq_true, if_false, if_true]

theorem create_of_write_error {fault : Store.Fault} {d' : DiskStore}
    (hwrite : d.write namespaceName c.name (c.inNamespace namespaceName).json =
      (.error fault, d')) : d.create namespaceName c false = (.error fault, d') := by
  have hpath' : d.path namespaceName c.name = .ok path := mapError_eq_ok_iff.mpr hpath
  unfold create
  simp only [hpath', hfind, hwrite, Option.isSome_none, Bool.false_eq_true, if_false]

theorem create_of_write_ok {d' : DiskStore}
    (hwrite : d.write namespaceName c.name (c.inNamespace namespaceName).json = (.ok (), d')) :
    d.create namespaceName c false = (.ok (c.inNamespace namespaceName), d') := by
  have hpath' : d.path namespaceName c.name = .ok path := mapError_eq_ok_iff.mpr hpath
  unfold create
  simp only [hpath', hfind, hwrite, Option.isSome_none, Bool.false_eq_true, if_false]

end

theorem creation_create (d : DiskStore) (namespaceName : Text) (c : Claim) (checkOnly : Bool) :
    d.Creation namespaceName c checkOnly (d.create namespaceName c checkOnly) := by
  cases hpath : Path.claimPath d.root namespaceName c.name with
  | error fault =>
    rw [create_of_claimPath_error hpath]
    exact .badPath hpath
  | ok path =>
    cases hfind : d.tree.find? path with
    | some place =>
      rw [create_of_found hpath hfind]
      exact .found hpath hfind
    | none =>
      cases checkOnly with
      | true =>
        rw [create_check hpath hfind]
        exact .checked hpath hfind rfl
      | false =>
        have hn := (Path.claimPath_eq_ok_iff.mp hpath).1
        have hwriting := d.writing_write hn c.name (c.inNamespace namespaceName).json
        cases hwrite : d.write namespaceName c.name (c.inNamespace namespaceName).json with
        | mk result d' =>
          rw [hwrite] at hwriting
          cases result with
          | error fault =>
            rw [create_of_write_error hpath hfind hwrite]
            exact .failed hpath hfind rfl hwriting
          | ok done =>
            rw [create_of_write_ok hpath hfind hwrite]
            exact .written hpath hfind rfl hwriting

/-- what was written is read again -/
theorem get_of_writing {d d' : DiskStore} {namespaceName name path : Text} {c : Claim}
    (hpath : Path.claimPath d.root namespaceName name = .ok path)
    (h : d.Writing namespaceName name c.json (.ok (), d')) :
    d'.get namespaceName name = .ok (some c) := by
  obtain ⟨hzero, hreaches⟩ := h.reaches_of_ok
  have hcontents := h.contents?_self_of_ok
  have hoccupied : d'.tree.isOccupied (.ofClaim d.root namespaceName name) = true := by
    rw [FileTree.isOccupied, FileTree.isFile, hcontents, Option.isSome_some, Bool.or_true]
  rw [← h.root] at hpath hzero hcontents hoccupied
  have hdirectory : d'.directory namespaceName = d.directory namespaceName := by
    rw [directory, directory, h.root]
  rw [← hdirectory] at hreaches
  refine get_of_contents? hpath ?_ hcontents c.ofJson_json
  rw [find?_of_reaches hpath hzero hreaches, Option.filter_some, if_pos hoccupied]

end DiskStore

/-! ## Either store -/

namespace Store

/-- the stores have the same entries: claims by key, or files -/
inductive Same : Store → Store → Prop where
  | memory (m : MemoryStore) : Same (.memory m) (.memory m)
  | disk {d d' : DiskStore} (root : d'.root = d.root) (files : d'.tree.files = d.tree.files) :
    Same (.disk d) (.disk d')

/-- the second store has one entry more, where the first had none: the claim, under a namespace
and its name -/
inductive Adds (namespaceName : Text) (c : Claim) : Store → Store → Prop where
  | memory {m : MemoryStore} (vacant : m.get? namespaceName c.name = none) :
    Adds namespaceName c (.memory m)
      (.memory ⟨m.claims ++ [(MemoryStore.key namespaceName c.name, c)]⟩)
  | disk {d d' : DiskStore} (root : d'.root = d.root)
    (vacant : d.tree.contents? (.ofClaim d.root namespaceName c.name) = none)
    (files : d'.tree.files =
      d.tree.files ++ [(.ofClaim d.root namespaceName c.name, c.json)]) :
    Adds namespaceName c (.disk d) (.disk d')

theorem Same.refl (s : Store) : s.Same s := by
  cases s with
  | memory m => exact .memory m
  | disk d => exact .disk rfl rfl

/-- the outcomes of a submission -/
inductive Creation (s : Store) (namespaceName : Text) (c : Claim) (checkOnly : Bool) :
    Except Fault Claim × Store → Prop where
  | refused {fault : Fault} {s' : Store} (same : s.Same s') :
    Creation s namespaceName c checkOnly (.error fault, s')
  | checked (check : checkOnly = true) :
    Creation s namespaceName c checkOnly (.ok (c.inNamespace namespaceName), s)
  | added {s' : Store} (check : checkOnly = false)
    (adds : Adds namespaceName (c.inNamespace namespaceName) s s')
    (get : s'.get namespaceName c.name = .ok (some (c.inNamespace namespaceName)))
    (kept : ∀ {other name : Text} {x : Claim},
      s.get other name = .ok (some x) → s'.get other name = .ok (some x)) :
    Creation s namespaceName c checkOnly (.ok (c.inNamespace namespaceName), s')

theorem creation_create (s : Store) (namespaceName : Text) (c : Claim) (checkOnly : Bool) :
    s.Creation namespaceName c checkOnly (s.create namespaceName c checkOnly) := by
  cases s with
  | memory m =>
    have hcreation := m.creation_create namespaceName c checkOnly
    unfold create
    dsimp only
    generalize m.create namespaceName c checkOnly = p at hcreation
    cases hcreation with
    | taken found => exact .refused (.refl _)
    | checked vacant check => exact .checked check
    | added vacant check =>
      refine .added check (.memory vacant) ?_ ?_
      · exact congrArg Except.ok (MemoryStore.get?_append_self vacant _)
      · intro other name x hget
        exact congrArg Except.ok (MemoryStore.get?_append_of_some (Except.ok.inj hget) _)
  | disk d =>
    have hcreation := d.creation_create namespaceName c checkOnly
    unfold create
    dsimp only
    generalize d.create namespaceName c checkOnly = p at hcreation
    cases hcreation with
    | badPath refused => exact .refused (.refl _)
    | found hpath found => exact .refused (.refl _)
    | checked hpath missing check => exact .checked check
    | failed hpath missing check writing =>
      exact .refused (.disk writing.root writing.files_of_error)
    | written hpath missing check writing =>
      exact .added check (.disk writing.root writing.contents?_of_ok writing.files_of_ok)
        (DiskStore.get_of_writing hpath writing)
        (DiskStore.get_of_extends writing.root writing.extends_of_ok)

theorem eq_of_create {s : Store} {namespaceName : Text} {c x : Claim} {checkOnly : Bool}
    (h : (s.create namespaceName c checkOnly).1 = .ok x) : x = c.inNamespace namespaceName := by
  have hcreation := s.creation_create namespaceName c checkOnly
  generalize s.create namespaceName c checkOnly = p at h hcreation
  cases hcreation <;> cases h <;> rfl

end Store
end VolumeClaim
