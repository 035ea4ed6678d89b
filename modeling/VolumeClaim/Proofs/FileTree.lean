import VolumeClaim.FileTree
import VolumeClaim.Keyed
import VolumeClaim.Proofs.Path.Place

/-!
# Where a file tree finds and makes things

* `eq_of_find?`, `eq_of_makeDirectories` what is found and every directory that is made stands at
  the place that its path names;
* `publish_eq`             publishing adds the one file or nothing, under any stamp that keeps the
  temporary file apart, and `isOccupied_unusedStamp` there is such a stamp.
-/

namespace VolumeClaim.FileTree
open Text

theorem eq_of_follow? {t : FileTree} {components : List Text} {l place : Location}
    (h : t.follow? l components = some place) : place = components.foldl Location.follow l := by
  induction components generalizing l with
  | nil =>
    cases h
    rfl
  | cons component rest ih =>
    rw [follow?] at h
    by_cases hl : t.isDirectory l = true
    · rw [if_pos hl] at h
      exact ih h
    · rw [if_neg hl] at h
      cases h

theorem eq_of_find? {t : FileTree} {path : Text} {place : Location}
    (h : t.find? path = some place) : place = .ofPath path ∧ t.isOccupied place = true := by
  unfold find? at h
  by_cases hnil : path.untilZero = []
  · rw [if_pos hnil] at h
    cases h
  · rw [if_neg hnil] at h
    obtain ⟨hfollow, hplace⟩ := Option.filter_eq_some_iff.mp h
    exact ⟨eq_of_follow? hfollow, hplace⟩

theorem eq_of_makeAlong {t t' : FileTree} {components : List Text} {l place : Location}
    {made : Bool} (h : t.makeAlong l made components = (.ok place, t')) :
    place = components.foldl Location.follow l := by
  fun_induction makeAlong t l made components with
  | case1 =>
    cases h
    rfl
  | case2 _ _ _ _ _ _ _ ih => exact ih h
  | case3 => cases h
  | case4 _ _ _ _ _ _ _ _ ih => exact ih h

theorem eq_of_makeDirectories {t t' : FileTree} {path : Text} {place : Location}
    (h : t.makeDirectories path = (.ok place, t')) : place = .ofPath path := by
  unfold makeDirectories at h
  by_cases hnil : path.untilZero = []
  · rw [if_pos hnil] at h
    cases h
  · rw [if_neg hnil] at h
    exact eq_of_makeAlong h

theorem mem_files_of_contents? {t : FileTree} {l : Location} {contents : Text}
    (h : t.contents? l = some contents) : (l, contents) ∈ t.files :=
  Keyed.mem_of_lookup_eq_some h

theorem contents?_of_not_isOccupied {t : FileTree} {l : Location} (h : t.isOccupied l = false) :
    t.contents? l = none := by
  have hfile : t.isFile l = false := (Bool.or_eq_false_iff.mp h).2
  exact Option.not_isSome_iff_eq_none.mp (Bool.eq_false_iff.mp hfile)

/-! ## Publishing files -/

theorem contents?_addFile_self {t : FileTree} {l : Location} (h : t.contents? l = none)
    (contents : Text) : (t.addFile l contents).contents? l = some contents := by
  have hadd : (t.addFile l contents).contents? l = (t.contents? l).or ([(l, contents)].lookup l) :=
    List.lookup_append
  rw [hadd, h, Option.none_or, List.lookup_cons_self]

theorem contents?_addFile_of_ne {l m : Location} (h : m ≠ l) (t : FileTree) (contents : Text) :
    (t.addFile l contents).contents? m = t.contents? m := by
  have hadd : (t.addFile l contents).contents? m = (t.contents? m).or ([(l, contents)].lookup m) :=
    List.lookup_append
  rw [hadd, List.lookup_cons, beq_false_of_ne h, List.lookup_nil, Option.or_none]

theorem isOccupied_addFile_of_ne {l m : Location} (h : m ≠ l) (t : FileTree) (contents : Text) :
    (t.addFile l contents).isOccupied m = t.isOccupied m := by
  unfold isOccupied isFile
  rw [contents?_addFile_of_ne h]
  rfl

theorem removeFile_of_contents? {t : FileTree} {l : Location} (h : t.contents? l = none) :
    t.removeFile l = t := by
  have hkept : t.files.filter (·.1 ≠ l) = t.files := by
    refine List.filter_eq_self.mpr fun e he => ?_
    have hne := List.lookup_eq_none_iff.mp h e he
    simpa using Ne.symm (bne_iff_ne.mp hne)
  unfold removeFile
  rw [hkept]

theorem removeFile_addFile_self (t : FileTree) (l : Location) (contents : Text) :
    (t.addFile l contents).removeFile l = t.removeFile l := by
  simp [removeFile, addFile]

theorem removeFile_addFile_of_ne {l m : Location} (h : m ≠ l) (t : FileTree) (contents : Text) :
    (t.addFile m contents).removeFile l = (t.removeFile l).addFile m contents := by
  simp [removeFile, addFile, h]

theorem link_eq {t : FileTree} {source : Location} {contents : Text}
    (h : t.contents? source = some contents) (target : Location) : t.link source target =
      if t.isOccupied target then (false, t) else (true, t.addFile target contents) := by
  unfold link
  rw [h]

theorem child_temporaryName_ne (l : Location) (name stamp : Text) :
    l.child name ≠ l.child (Path.temporaryName name stamp) := by
  intro h
  have hname : name ++ byte '.' :: (stamp ++ ascii ".tmp") = name := (Location.child_inj.mp h).2.symm
  exact absurd (List.append_right_eq_self.mp hname) (List.cons_ne_nil _ _)

theorem publish_eq {t : FileTree} {directory : Location} {name stamp : Text}
    (h : t.isOccupied (directory.child (Path.temporaryName name stamp)) = false)
    (contents : Text) : t.publish directory name stamp contents =
      if t.isOccupied (directory.child name) then (false, t)
      else (true, t.addFile (directory.child name) contents) := by
  have hvacant := contents?_of_not_isOccupied h
  have hne := child_temporaryName_ne directory name stamp
  have hremoved : (t.addFile (directory.child (Path.temporaryName name stamp)) contents).removeFile
      (directory.child (Path.temporaryName name stamp)) = t := by
    rw [removeFile_addFile_self, removeFile_of_contents? hvacant]
  unfold publish
  dsimp only
  rw [link_eq (contents?_addFile_self hvacant contents), isOccupied_addFile_of_ne hne]
  by_cases htaken : t.isOccupied (directory.child name) = true
  · rw [if_pos htaken, if_pos htaken, hremoved]
  · rw [if_neg htaken, if_neg htaken, removeFile_addFile_of_ne hne, hremoved]

theorem length_le_longestName {t : FileTree} {l : Location}
    (h : l ∈ t.directories ++ t.files.map Prod.fst) :
    (l.names.headD []).length ≤ t.longestName := by
  unfold longestName
  generalize t.directories ++ t.files.map Prod.fst = places at h
  induction places with
  | nil => exact absurd h List.not_mem_nil
  | cons place places ih =>
    rw [List.foldr_cons]
    rcases List.mem_cons.mp h with rfl | h
    · exact Nat.le_max_left _ _
    · exact Nat.le_trans (ih h) (Nat.le_max_right _ _)

theorem isOccupied_child_of_long {t : FileTree} {name : Text} (h : t.longestName < name.length)
    (l : Location) : t.isOccupied (l.child name) = false := by
  have hnone : l.child name ∉ t.directories ++ t.files.map Prod.fst := by
    intro hmem
    have hle : name.length ≤ t.longestName := length_le_longestName hmem
    omega
  rw [List.mem_append, not_or] at hnone
  have hdirectory : t.isDirectory (l.child name) = false := by
    show (false || t.directories.contains (l.child name)) = false
    simpa using hnone.1
  have hfile : t.isFile (l.child name) = false := by
    unfold isFile
    cases hcontents : t.contents? (l.child name) with
    | none => rfl
    | some contents =>
      have hmem := List.mem_map_of_mem (f := Prod.fst) (mem_files_of_contents? hcontents)
      exact absurd hmem hnone.2
  rw [isOccupied, hdirectory, hfile, Bool.or_false]

theorem isOccupied_unusedStamp (t : FileTree) (directory : Location) (name : Text) :
    t.isOccupied (directory.child (Path.temporaryName name t.unusedStamp)) = false := by
  apply isOccupied_child_of_long
  have hstamp : t.unusedStamp.length = t.longestName + 1 := List.length_replicate
  have hname : (Path.temporaryName name t.unusedStamp).length =
      name.length + (t.unusedStamp.length + 4 + 1) := by
    simp [Path.temporaryName, ascii]
  omega

end VolumeClaim.FileTree
