import VolumeClaim.Proofs.Store.History

/-!
# The store on disk as a write-once map

Over a root with nothing in it, a store on disk keeps the first claim of each namespace and name
for good, in a file of its own, and makes no other file.  All else that it makes is directories:
those on the way of the root, and one for each namespace.

* `DiskStore.Recalls`      what the tree has of the claims that were created;
* `DiskStore.exists_recalls_answer`, `DiskStore.exists_recalls_serve` one call keeps that, and so
  does any number of calls;
* `DiskStore.keeps_first_by_pair` what the store answers then, and which files there are;
* `DiskStore.Contract.map_of_straight` over an ordinary root these are the answers of a map.
-/

namespace VolumeClaim

/-- nothing is below the path, and no file at its end -/
def FileTree.IsEmptyAt (t : FileTree) (path : Text) : Prop :=
  ∀ l : Location, l.IsWithin (.ofPath path) →
    t.isFile l = false ∧ (l ≠ .ofPath path → t.isDirectory l = false)

theorem FileTree.isEmptyAt_empty (path : Text) : empty.IsEmptyAt path := by
  intro l hl
  refine ⟨rfl, fun hne => ?_⟩
  show (l.names.isEmpty || false) = false
  rw [Bool.or_false, List.isEmpty_eq_false_iff]
  intro hnil
  obtain ⟨hanchor, hsuffix⟩ := hl
  rw [hnil, List.suffix_nil] at hsuffix
  apply hne
  show Location.mk l.anchor l.names =
    ⟨(Location.ofPath path).anchor, (Location.ofPath path).names⟩
  rw [hanchor, hnil, hsuffix]

namespace DiskStore
open Store (Call History Reply)
open Location (ofPath ofClaim)
open VolumeClaim.Path (IsComponent flaw? claimPath)

/-- the tree is what the start and the claims that were created make of it -/
structure Recalls (root : Text) (start tree : FileTree)
    (created : List ((Text × Text) × Claim)) : Prop where
  files : tree.files =
    start.files ++ created.map fun e => (ofClaim root e.1.1 e.1.2, e.2.json)
  components : ∀ e ∈ created, flaw? e.1.1 = none ∧ flaw? e.1.2 = none
  distinct : (created.map Prod.fst).Nodup
  -- where directories are and are not, so that no file is ever missed or in the way
  reached : ∀ e ∈ created, tree.Reaches (Path.join root e.1.1)
  aside : ∀ e ∈ created, ofClaim root e.1.1 e.1.2 ∉ Location.way root
  directories : ∀ l, tree.isDirectory l = true → start.isDirectory l = true ∨
    l ∈ Location.way root ∨ ∃ namespaceName, l = (ofPath root).child namespaceName

theorem recalls_start (root : Text) (start : FileTree) : Recalls root start start [] where
  files := (List.append_nil _).symm
  components := nofun
  distinct := List.nodup_nil
  reached := nofun
  aside := nofun
  directories := fun _ h => .inl h

section
variable {root : Text} {start tree : FileTree} {created : List ((Text × Text) × Claim)}
variable (h : Recalls root start tree created)
include h

/-! ## Places -/

theorem Recalls.nodup_places :
    ((created.map fun e => (ofClaim root e.1.1 e.1.2, e.2.json)).map Prod.fst).Nodup := by
  have hdistinct := h.distinct
  rw [List.map_map, List.nodup_iff_pairwise_ne, List.pairwise_map]
  rw [List.nodup_iff_pairwise_ne, List.pairwise_map] at hdistinct
  apply hdistinct.imp
  intro e e' hne heq
  obtain ⟨hspace, hname⟩ := Location.ofClaim_inj.mp heq
  exact hne (Prod.ext hspace hname)

theorem Recalls.contents?_eq (l : Location) : tree.contents? l = (start.contents? l).or
    ((created.map fun e => (ofClaim root e.1.1 e.1.2, e.2.json)).lookup l) := by
  unfold FileTree.contents?
  rw [h.files, List.lookup_append]

/-- below the root, the files are those of the claims -/
theorem Recalls.contents?_eq_some_iff {l : Location} (vacant : start.isFile l = false)
    {text : Text} : tree.contents? l = some text ↔
      ∃ e ∈ created, l = ofClaim root e.1.1 e.1.2 ∧ text = e.2.json := by
  have hnone : start.contents? l = none := by
    rw [FileTree.isFile, Option.isSome_eq_false_iff, Option.isNone_iff_eq_none] at vacant
    exact vacant
  rw [h.contents?_eq, hnone, Option.none_or, Keyed.lookup_eq_some_iff_mem h.nodup_places,
    List.mem_map]
  simp only [Prod.mk.injEq, eq_comm]

theorem Recalls.isFile_iff {l : Location} (vacant : start.isFile l = false) :
    tree.isFile l = true ↔ ∃ e ∈ created, l = ofClaim root e.1.1 e.1.2 := by
  rw [FileTree.isFile, Option.isSome_iff_exists]
  constructor
  · rintro ⟨text, htext⟩
    obtain ⟨e, he, hl, -⟩ := (h.contents?_eq_some_iff vacant).mp htext
    exact ⟨e, he, hl⟩
  · rintro ⟨e, he, hl⟩
    exact ⟨_, (h.contents?_eq_some_iff vacant).mpr ⟨e, he, hl, rfl⟩⟩

section
variable (hempty : start.IsEmptyAt root)
include hempty

theorem Recalls.contents?_ofClaim (namespaceName name : Text) :
    tree.contents? (ofClaim root namespaceName name) =
      (created.lookup (namespaceName, name)).map Claim.json := by
  have hvacant := (hempty _ (Location.isWithin_ofClaim root namespaceName name)).1
  apply Option.ext
  intro text
  rw [h.contents?_eq_some_iff hvacant, Option.map_eq_some_iff]
  constructor
  · rintro ⟨e, he, hl, rfl⟩
    obtain ⟨hspace, hname⟩ := Location.ofClaim_inj.mp hl
    refine ⟨e.2, (Keyed.lookup_eq_some_iff_mem h.distinct).mpr ?_, rfl⟩
    rw [hspace, hname]
    exact he
  · rintro ⟨c, hc, rfl⟩
    exact ⟨_, Keyed.mem_of_lookup_eq_some hc, rfl, rfl⟩

/-- a directory stands at the place of a claim only if the root's own path leads through it -/
theorem Recalls.mem_way_of_isDirectory {namespaceName name : Text}
    (hl : tree.isDirectory (ofClaim root namespaceName name) = true) :
    ofClaim root namespaceName name ∈ Location.way root := by
  have hwithin := Location.isWithin_ofClaim root namespaceName name
  rcases h.directories _ hl with hstart | hway | ⟨other, hchild⟩
  · rw [(hempty _ hwithin).2 (Location.ofClaim_ne_ofPath _ _ _)] at hstart
    cases hstart
  · exact hway
  · exact absurd hchild (Location.ofClaim_ne_child _ _ _ _)

end

/-! ## Making directories and files -/

section
variable {namespaceName : Text} {tree' : FileTree} {made : Except FileTree.Obstacle Location}
variable (hzero : 0 ∉ root) (hn : flaw? namespaceName = none)
include hzero hn

theorem Recalls.makeDirectories :
    Recalls root start (tree.makeDirectories (Path.join root namespaceName)).2 created where
  files := (tree.files_makeDirectories _).trans h.files
  components := h.components
  distinct := h.distinct
  reached := fun e he l hl => FileTree.isDirectory_makeDirectories (h.reached e he l hl)
  aside := h.aside
  directories := by
    intro l hl
    rcases FileTree.isDirectory_of_makeDirectories hl with hold | hway
    · exact h.directories l hold
    · rcases (Location.mem_way_directory hzero hn l).mp hway with hroot | hchild
      · exact .inr (.inl hroot)
      · exact .inr (.inr ⟨namespaceName, hchild⟩)

theorem Recalls.of_makeDirectories
    (hmade : tree.makeDirectories (Path.join root namespaceName) = (made, tree')) :
    Recalls root start tree' created := by
  have hmakes := h.makeDirectories hzero hn
  rw [hmade] at hmakes
  exact hmakes

/-- only a file that was there from the start can be in the way -/
theorem Recalls.exists_isFile_of_blocked {obstacle : FileTree.Obstacle}
    (hempty : start.IsEmptyAt root)
    (hmade : tree.makeDirectories (Path.join root namespaceName) = (.error obstacle, tree')) :
    ∃ l ∈ Location.way root, start.isFile l = true := by
  refine Decidable.byContradiction fun hnone => ?_
  have hstart : ∀ l ∈ Location.way root, start.isFile l = false := fun l hl =>
    Bool.eq_false_iff.mpr fun hfile => hnone ⟨l, hl, hfile⟩
  have hfree : ∀ l ∈ Location.way (Path.join root namespaceName), tree.isFile l = false := by
    intro l hl
    apply Bool.eq_false_iff.mpr
    intro hfile
    rcases (Location.mem_way_directory hzero hn l).mp hl with hway | rfl
    · obtain ⟨e, he, rfl⟩ := (h.isFile_iff (hstart l hway)).mp hfile
      exact h.aside e he hway
    · have hwithin : ((ofPath root).child namespaceName).IsWithin (ofPath root) :=
        (Location.isWithin_self _).child _
      obtain ⟨e, he, heq⟩ := (h.isFile_iff (hempty _ hwithin).1).mp hfile
      exact Location.ofClaim_ne_child _ _ _ _ heq.symm
  have hpath : (Path.join root namespaceName).untilZero ≠ [] := by
    rw [Text.untilZero_eq_self (Path.zero_notMem_join hzero (Path.zero_notMem_of_flaw? hn))]
    exact Path.join_ne_nil (Path.flaw?_eq_none_iff.mp hn).1 root
  obtain ⟨place, t, hok⟩ := FileTree.exists_makeDirectories hpath hfree
  rw [hmade] at hok
  cases hok

theorem Recalls.addFile {c : Claim} (hempty : start.IsEmptyAt root) (hname : flaw? c.name = none)
    (reached : tree.Reaches (Path.join root namespaceName))
    (vacant : tree.isOccupied (ofClaim root namespaceName c.name) = false) :
    Recalls root start (tree.addFile (ofClaim root namespaceName c.name) c.json)
      (created ++ [((namespaceName, c.name), c)]) where
  files := by
    show tree.files ++ [(_, _)] = _
    rw [h.files, List.map_append, List.append_assoc]
    rfl
  components := List.forall_mem_append.mpr
    ⟨h.components, List.forall_mem_singleton.mpr ⟨hn, hname⟩⟩
  distinct := by
    apply Store.nodup_map_concat h.distinct
    intro e he hsame
    have hpair : e.1 = (namespaceName, c.name) := hsame
    have hcontents := h.contents?_ofClaim hempty namespaceName c.name
    have hlookup : created.lookup (namespaceName, c.name) = some e.2 := by
      rw [Keyed.lookup_eq_some_iff_mem h.distinct, ← hpair]
      exact he
    rw [FileTree.contents?_of_not_isOccupied vacant, hlookup] at hcontents
    cases hcontents
  reached := List.forall_mem_append.mpr ⟨h.reached, List.forall_mem_singleton.mpr reached⟩
  aside := by
    refine List.forall_mem_append.mpr ⟨h.aside, List.forall_mem_singleton.mpr fun hway => ?_⟩
    -- the way of the root is made of directories by now, and the file found its place vacant
    have hdirectory := reached _ ((Location.mem_way_directory hzero hn _).mpr (.inl hway))
    rw [FileTree.isOccupied, hdirectory] at vacant
    cases vacant
  directories := h.directories

theorem Recalls.of_writing_error {name contents : Text} {fault : Store.Fault} {d : DiskStore}
    (writing : Writing ⟨root, tree⟩ namespaceName name contents (.error fault, d)) :
    ∃ tree', d = ⟨root, tree'⟩ ∧ Recalls root start tree' created := by
  cases writing with
  | blocked made => exact ⟨_, rfl, h.of_makeDirectories hzero hn made⟩
  | notOpened made zero => exact absurd zero hzero
  | taken made zero occupied => exact ⟨_, rfl, h.of_makeDirectories hzero hn made⟩

theorem Recalls.of_writing_ok {c : Claim} {d : DiskStore} (hempty : start.IsEmptyAt root)
    (hname : flaw? c.name = none)
    (writing : Writing ⟨root, tree⟩ namespaceName c.name c.json (.ok (), d)) :
    ∃ tree', d = ⟨root, tree'⟩ ∧
      Recalls root start tree' (created ++ [((namespaceName, c.name), c)]) := by
  cases writing with
  | written made zero vacant =>
    have h' := h.of_makeDirectories hzero hn made
    have hreached := FileTree.reaches_of_makeDirectories made
    exact ⟨_, rfl, h'.addFile hzero hn hempty hname hreached vacant⟩

end

/-! ## Single calls -/

section
variable {namespaceName name path : Text}
variable (hzero : 0 ∉ root) (hempty : start.IsEmptyAt root)
variable (hpath : claimPath root namespaceName name = .ok path)
include hzero hempty hpath

/-- what was created is found at its place -/
theorem Recalls.find?_of_created {c : Claim}
    (hc : created.lookup (namespaceName, name) = some c) :
    tree.find? path = some (ofClaim root namespaceName name) := by
  have hreached := h.reached _ (Keyed.mem_of_lookup_eq_some hc)
  have hcontents := h.contents?_ofClaim hempty namespaceName name
  have hoccupied : tree.isOccupied (ofClaim root namespaceName name) = true := by
    rw [FileTree.isOccupied, FileTree.isFile, hcontents, hc]
    exact Bool.or_true _
  have hfind := find?_of_reaches (d := ⟨root, tree⟩) hpath hzero hreached
  rw [Option.filter_some, if_pos hoccupied] at hfind
  exact hfind

/-- what was not created is not found, unless the root's own path leads through its place -/
theorem Recalls.find?_of_not_created {l : Location}
    (hnone : created.lookup (namespaceName, name) = none) (hl : tree.find? path = some l) :
    l ∈ Location.way root ∧ l = ofClaim root namespaceName name ∧ tree.contents? l = none := by
  obtain ⟨hplace, hoccupied⟩ := FileTree.eq_of_find? hl
  rw [Location.ofPath_of_claimPath hpath, if_neg hzero] at hplace
  have hcontents := h.contents?_ofClaim hempty namespaceName name
  rw [hnone, ← hplace] at hcontents
  rw [FileTree.isOccupied, FileTree.isFile, hcontents, Option.map_none, Option.isSome_none,
    Bool.or_false, hplace] at hoccupied
  refine ⟨?_, hplace, hcontents⟩
  rw [hplace]
  exact h.mem_way_of_isDirectory hempty hoccupied

theorem Recalls.get_of_created {c : Claim} (hc : created.lookup (namespaceName, name) = some c) :
    get ⟨root, tree⟩ namespaceName name = .ok (some c) := by
  have hfind := h.find?_of_created hzero hempty hpath hc
  have hcontents := h.contents?_ofClaim hempty namespaceName name
  rw [hc, Option.map_some] at hcontents
  exact get_of_contents? (d := ⟨root, tree⟩) hpath hfind hcontents c.ofJson_json

theorem Recalls.get_of_not_created (hnone : created.lookup (namespaceName, name) = none) :
    get ⟨root, tree⟩ namespaceName name = .ok none ∨
      ofClaim root namespaceName name ∈ Location.way root ∧
        get ⟨root, tree⟩ namespaceName name = .error .notAFile := by
  cases hfind : tree.find? path with
  | none => exact .inl (get_of_find?_none (d := ⟨root, tree⟩) hpath hfind)
  | some l =>
    obtain ⟨hway, hl, hcontents⟩ := h.find?_of_not_created hzero hempty hpath hnone hfind
    rw [← hl]
    exact .inr ⟨hway, get_of_contents?_none (d := ⟨root, tree⟩) hpath hfind hcontents⟩

end

section
variable {namespaceName path : Text} {c : Claim}
variable (hzero : 0 ∉ root) (hempty : start.IsEmptyAt root)
variable (hpath : claimPath root namespaceName c.name = .ok path) (checkOnly : Bool)
include hzero hempty hpath

theorem Recalls.create_of_created {x : Claim}
    (hx : created.lookup (namespaceName, c.name) = some x) :
    create ⟨root, tree⟩ namespaceName c checkOnly =
      (.error (.alreadyExists c.name), ⟨root, tree⟩) := by
  have hfind := h.find?_of_created hzero hempty hpath hx
  exact create_of_found (d := ⟨root, tree⟩) hpath hfind checkOnly

theorem Recalls.create_of_not_created
    (hnone : created.lookup (namespaceName, c.name) = none) :
    (create ⟨root, tree⟩ namespaceName c checkOnly).1 = .ok (c.inNamespace namespaceName) ∨
    (ofClaim root namespaceName c.name ∈ Location.way root ∧
      (create ⟨root, tree⟩ namespaceName c checkOnly).1 = .error (.alreadyExists c.name)) ∨
    (∃ l ∈ Location.way root, start.isFile l = true) ∧ ∃ obstacle,
      (create ⟨root, tree⟩ namespaceName c checkOnly).1 =
        .error (.blocked (Path.join root namespaceName) obstacle) := by
  obtain ⟨hn, hname, -⟩ := Path.claimPath_eq_ok_iff.mp hpath
  have hcreation := creation_create ⟨root, tree⟩ namespaceName c checkOnly
  generalize create ⟨root, tree⟩ namespaceName c checkOnly = p at hcreation
  cases hcreation with
  | badPath refused =>
    rw [hpath] at refused
    cases refused
  | @found path' place hpath' found =>
    rw [hpath] at hpath'
    cases hpath'
    obtain ⟨hway, rfl, -⟩ := h.find?_of_not_created hzero hempty hpath hnone found
    exact .inr (.inl ⟨hway, rfl⟩)
  | checked => exact .inl rfl
  | @failed path' fault d' hpath' missing check writing =>
    cases writing with
    | @blocked obstacle tree' made =>
      have hfile := h.exists_isFile_of_blocked hzero hn hempty made
      exact .inr (.inr ⟨hfile, obstacle, rfl⟩)
    | notOpened made zero => exact absurd zero hzero
    | @taken place tree' made zero occupied =>
      have h' := h.of_makeDirectories hzero hn made
      have hcontents := h'.contents?_ofClaim hempty namespaceName c.name
      rw [FileTree.isOccupied, FileTree.isFile, hcontents, hnone, Option.map_none,
        Option.isSome_none, Bool.or_false] at occupied
      exact .inr (.inl ⟨h'.mem_way_of_isDirectory hempty occupied, rfl⟩)
  | written => exact .inl rfl

end

end

/-! ## Histories -/

section
variable {root : Text} {start tree : FileTree} (hzero : 0 ∉ root) (hempty : start.IsEmptyAt root)
include hzero hempty

theorem exists_recalls_answer {past : History} (h : Recalls root start tree past.created)
    (call : Call) : ∃ tree', ((Store.disk ⟨root, tree⟩).answer call).2 = .disk ⟨root, tree'⟩ ∧
      Recalls root start tree'
        (past ++ [(call, ((Store.disk ⟨root, tree⟩).answer call).1)]).created := by
  cases call with
  | get namespaceName name =>
    refine ⟨tree, rfl, ?_⟩
    rw [History.created_concat_of_none (History.creation?_get _ _ _)]
    exact h
  | create namespaceName c checkOnly =>
    have hcreation := creation_create ⟨root, tree⟩ namespaceName c checkOnly
    unfold Store.answer Store.create
    dsimp only
    generalize create ⟨root, tree⟩ namespaceName c checkOnly = p at hcreation
    cases hcreation with
    | badPath refused =>
      refine ⟨tree, rfl, ?_⟩
      rw [History.created_concat_of_none (History.creation?_error _ _ _ _)]
      exact h
    | found hpath found =>
      refine ⟨tree, rfl, ?_⟩
      rw [History.created_concat_of_none (History.creation?_error _ _ _ _)]
      exact h
    | checked hpath missing check =>
      subst check
      refine ⟨tree, rfl, ?_⟩
      rw [History.created_concat_of_none (History.creation?_check _ _ _)]
      exact h
    | failed hpath missing check writing =>
      have hn := (Path.claimPath_eq_ok_iff.mp hpath).1
      obtain ⟨tree', rfl, h'⟩ := h.of_writing_error hzero hn writing
      refine ⟨tree', rfl, ?_⟩
      rw [History.created_concat_of_none (History.creation?_error _ _ _ _)]
      exact h'
    | written hpath missing check writing =>
      subst check
      obtain ⟨hn, hname, -⟩ := Path.claimPath_eq_ok_iff.mp hpath
      obtain ⟨tree', rfl, h'⟩ := h.of_writing_ok (c := c.inNamespace namespaceName) hzero hn
        hempty hname writing
      refine ⟨tree', rfl, ?_⟩
      rw [History.created_concat_of_some (History.creation?_ok _ _ _)]
      exact h'

theorem exists_recalls_serve (calls : List Call) :
    ∃ tree, ((Store.disk ⟨root, start⟩).serve calls).2 = .disk ⟨root, tree⟩ ∧
      Recalls root start tree ((Store.disk ⟨root, start⟩).serve calls).1.created := by
  apply Store.serve_induction
    (P := fun past s => ∃ tree, s = .disk ⟨root, tree⟩ ∧ Recalls root start tree past.created)
  · rintro past s call ⟨tree, rfl, h⟩
    exact exists_recalls_answer hzero hempty h call
  · exact ⟨start, rfl, recalls_start root start⟩

end

/-- what a store on disk has kept of a history, and how it answers then.  The root's own path may
lead through the place of a claim, if it has two dots behind that: then a directory stands there,
and the claim can be neither created nor looked up. -/
structure Contract (root : Text) (start tree : FileTree) (past : History) : Prop where
  distinct : (past.created.map Prod.fst).Nodup
  components : ∀ e ∈ past.created, IsComponent e.1.1 ∧ IsComponent e.1.2
  documents : ∀ e ∈ past.created, Claim.ofJson e.2.json = .ok e.2 ∧
    e.2.name = e.1.2 ∧ e.2.metadataOrEmpty.namespaceName = e.1.1
  files : tree.files =
    start.files ++ past.created.map fun e => (ofClaim root e.1.1 e.1.2, e.2.json)
  below : ∀ l text, l.IsWithin (ofPath root) → (tree.contents? l = some text ↔
    ∃ e ∈ past.created, l = ofClaim root e.1.1 e.1.2 ∧ text = e.2.json)
  get : ∀ namespaceName name, IsComponent namespaceName → IsComponent name →
    DiskStore.get ⟨root, tree⟩ namespaceName name = .ok (past.first? namespaceName name) ∨
    past.first? namespaceName name = none ∧ ofClaim root namespaceName name ∈ Location.way root ∧
      DiskStore.get ⟨root, tree⟩ namespaceName name = .error .notAFile
  taken : ∀ namespaceName c checkOnly, past.first? namespaceName c.name ≠ none →
    create ⟨root, tree⟩ namespaceName c checkOnly =
      (.error (.alreadyExists c.name), ⟨root, tree⟩)
  vacant : ∀ namespaceName c checkOnly, IsComponent namespaceName → IsComponent c.name →
    past.first? namespaceName c.name = none →
    (create ⟨root, tree⟩ namespaceName c checkOnly).1 = .ok (c.inNamespace namespaceName) ∨
    (ofClaim root namespaceName c.name ∈ Location.way root ∧
      (create ⟨root, tree⟩ namespaceName c checkOnly).1 = .error (.alreadyExists c.name)) ∨
    (∃ l ∈ Location.way root, start.isFile l = true) ∧ ∃ obstacle,
      (create ⟨root, tree⟩ namespaceName c checkOnly).1 =
        .error (.blocked (Path.join root namespaceName) obstacle)
  invalid : ∀ namespaceName name, ¬ (IsComponent namespaceName ∧ IsComponent name) →
    ∃ fault, DiskStore.get ⟨root, tree⟩ namespaceName name = .error (.badPath fault) ∧
      ∀ c checkOnly, c.name = name → create ⟨root, tree⟩ namespaceName c checkOnly =
        (.error (.badPath fault), ⟨root, tree⟩)
  kept : ∀ namespaceName c checkOnly, checkOnly = true ∨
      (∃ fault, (create ⟨root, tree⟩ namespaceName c checkOnly).1 = .error fault) →
    (create ⟨root, tree⟩ namespaceName c checkOnly).2.tree.files = tree.files

section
variable {root : Text} {start tree : FileTree} {past : History}
variable (h : Contract root start tree past)
include h

section
variable {namespaceName name : Text} (hn : IsComponent namespaceName) (hname : IsComponent name)
include hn hname

theorem Contract.get_of_ne_notAFile
    (hfile : DiskStore.get ⟨root, tree⟩ namespaceName name ≠ .error .notAFile) :
    DiskStore.get ⟨root, tree⟩ namespaceName name = .ok (past.first? namespaceName name) :=
  (h.get namespaceName name hn hname).resolve_right fun hblocked => hfile hblocked.2.2

theorem Contract.get_of_notMem_way
    (haside : ofClaim root namespaceName name ∉ Location.way root) :
    DiskStore.get ⟨root, tree⟩ namespaceName name = .ok (past.first? namespaceName name) :=
  (h.get namespaceName name hn hname).resolve_right fun hblocked => haside hblocked.2.1

end

/-- **Where the root's own path leads through no two dots and no file, the store is a map**: what
is found is what was created first, and whatever was not created can be. -/
theorem Contract.map_of_straight (hzero : 0 ∉ root)
    (hup : ascii ".." ∉ Text.split Path.separator root)
    (hclear : ∀ l ∈ Location.way root, start.isFile l = false) {namespaceName name : Text}
    (hn : IsComponent namespaceName) (hname : IsComponent name) :
    DiskStore.get ⟨root, tree⟩ namespaceName name = .ok (past.first? namespaceName name) ∧
      ∀ c checkOnly, c.name = name → (create ⟨root, tree⟩ namespaceName c checkOnly).1 =
        if past.first? namespaceName name = none then .ok (c.inNamespace namespaceName)
        else .error (.alreadyExists name) := by
  have haside : ofClaim root namespaceName name ∉ Location.way root := by
    rw [← Text.untilZero_eq_self hzero] at hup
    exact Location.ofClaim_notMem_way hup namespaceName name
  refine ⟨h.get_of_notMem_way hn hname haside, ?_⟩
  rintro c checkOnly rfl
  split
  · rename_i hfree
    rcases h.vacant namespaceName c checkOnly hn hname hfree with hok | ⟨hway, -⟩ | ⟨hfile, -⟩
    · exact hok
    · exact absurd hway haside
    · obtain ⟨l, hl, hisFile⟩ := hfile
      rw [hclear l hl] at hisFile
      cases hisFile
  · rename_i htaken
    rw [h.taken namespaceName c checkOnly htaken]

end

theorem files_create {d : DiskStore} {namespaceName : Text} {c : Claim} {checkOnly : Bool}
    (h : checkOnly = true ∨ ∃ fault, (d.create namespaceName c checkOnly).1 = .error fault) :
    (d.create namespaceName c checkOnly).2.tree.files = d.tree.files := by
  have hcreation := d.creation_create namespaceName c checkOnly
  generalize d.create namespaceName c checkOnly = p at h hcreation
  cases hcreation with
  | badPath | found | checked => rfl
  | failed hpath missing check writing => exact writing.files_of_error
  | written hpath missing check writing =>
    subst check
    rcases h with hcheck | ⟨fault, hfault⟩
    · cases hcheck
    · cases hfault

theorem Recalls.contract {root : Text} {start tree : FileTree} {past : History}
    (hzero : 0 ∉ root) (hempty : start.IsEmptyAt root) (h : Recalls root start tree past.created)
    (titled : ∀ e ∈ past.created,
      e.2.name = e.1.2 ∧ e.2.metadataOrEmpty.namespaceName = e.1.1) :
    Contract root start tree past := by
  have hpath : ∀ {namespaceName name : Text}, IsComponent namespaceName → IsComponent name →
      ∃ path, claimPath root namespaceName name = .ok path := by
    intro namespaceName name hn hname
    rw [← Path.flaw?_eq_none_iff_isComponent] at hn hname
    exact ⟨_, Path.claimPath_eq_ok_iff.mpr ⟨hn, hname, rfl⟩⟩
  have hcomponents : ∀ e ∈ past.created, IsComponent e.1.1 ∧ IsComponent e.1.2 := by
    intro e he
    rw [← Path.flaw?_eq_none_iff_isComponent, ← Path.flaw?_eq_none_iff_isComponent]
    exact h.components e he
  constructor
  case distinct => exact h.distinct
  case components => exact hcomponents
  case documents => exact fun e he => ⟨e.2.ofJson_json, titled e he⟩
  case files => exact h.files
  case below => exact fun l text hl => h.contents?_eq_some_iff (hempty l hl).1
  case get =>
    intro namespaceName name hn hname
    obtain ⟨path, hpath⟩ := hpath hn hname
    cases hfirst : past.first? namespaceName name with
    | some c => exact .inl (h.get_of_created hzero hempty hpath hfirst)
    | none =>
      have hget := h.get_of_not_created hzero hempty hpath hfirst
      exact hget.imp_right fun hblocked => ⟨rfl, hblocked⟩
  case taken =>
    intro namespaceName c checkOnly hne
    obtain ⟨x, hx⟩ := Option.ne_none_iff_exists'.mp hne
    obtain ⟨hn, hname⟩ := hcomponents _ (Keyed.mem_of_lookup_eq_some hx)
    obtain ⟨path, hpath⟩ := hpath hn hname
    exact h.create_of_created hzero hempty hpath checkOnly hx
  case vacant =>
    intro namespaceName c checkOnly hn hname hnone
    obtain ⟨path, hpath⟩ := hpath hn hname
    exact h.create_of_not_created hzero hempty hpath checkOnly hnone
  case invalid =>
    intro namespaceName name hinvalid
    cases hclaim : claimPath root namespaceName name with
    | ok path =>
      obtain ⟨hn, hname, -⟩ := Path.claimPath_eq_ok_iff.mp hclaim
      rw [Path.flaw?_eq_none_iff_isComponent] at hn hname
      exact absurd ⟨hn, hname⟩ hinvalid
    | error fault =>
      refine ⟨fault, ?_, ?_⟩
      · exact bind_eq_error_iff.mpr (.inl (mapError_eq_error_iff.mpr ⟨fault, hclaim, rfl⟩))
      · rintro c checkOnly rfl
        exact create_of_claimPath_error hclaim checkOnly
  case kept => exact fun _ _ _ => files_create

/-- **After any calls over a root with nothing in it, a store on disk answers with the first claim
that was created of a namespace and name, refuses any other claim there, and refuses all that is
no component.  The files are those at the start and one document for each claim that was
created.** -/
theorem keeps_first_by_pair {root : Text} {start : FileTree} (hzero : 0 ∉ root)
    (hempty : start.IsEmptyAt root) (calls : List Call) : ∃ past tree,
    (Store.disk ⟨root, start⟩).serve calls = (past, .disk ⟨root, tree⟩) ∧
      past.map Prod.fst = calls ∧ Contract root start tree past := by
  obtain ⟨tree, hstore, h⟩ := exists_recalls_serve hzero hempty calls
  refine ⟨_, tree, Prod.ext rfl hstore, Store.map_fst_serve _ _, ?_⟩
  exact h.contract hzero hempty (Store.inNamespace_of_mem_created _ _)

/-- the claim `x` is created in the namespace `a` once; the second time, another claim of that
name is refused, and a check is too -/
theorem keeps_first_by_pair_once :
    let c : Claim := { Claim.empty with metadata := some { Metadata.empty with name := ascii "x" } }
    let again : Claim := { c with kind := ascii "again" }
    let calls : List Call := [.create (ascii "a") c false, .create (ascii "a") again false]
    ∃ past tree, (Store.disk ⟨ascii "r", .empty⟩).serve calls = (past, .disk ⟨ascii "r", tree⟩) ∧
      past.first? (ascii "a") (ascii "x") = some (c.inNamespace (ascii "a")) ∧
      tree.files = [(⟨.above 0, [ascii "x.json", ascii "a", ascii "r"]⟩,
        (c.inNamespace (ascii "a")).json)] ∧
      create ⟨ascii "r", tree⟩ (ascii "a") again true =
        (.error (.alreadyExists (ascii "x")), ⟨ascii "r", tree⟩) := by
  intro c again calls
  obtain ⟨past, tree, hserve, -, hcontract⟩ :=
    keeps_first_by_pair (by decide : 0 ∉ ascii "r") (FileTree.isEmptyAt_empty _) calls
  have hpast : ((Store.disk ⟨ascii "r", .empty⟩).serve calls).1 = past := congrArg Prod.fst hserve
  have hfirst : past.first? (ascii "a") (ascii "x") = some (c.inNamespace (ascii "a")) := by
    rw [← hpast]
    rfl
  refine ⟨past, tree, hserve, hfirst, ?_, hcontract.taken _ again true ?_⟩
  · rw [hcontract.files, ← hpast]
    rfl
  · show past.first? (ascii "a") (ascii "x") ≠ none
    rw [hfirst]
    exact Option.some_ne_none _

end DiskStore
end VolumeClaim
