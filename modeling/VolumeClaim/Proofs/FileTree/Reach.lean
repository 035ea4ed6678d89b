import VolumeClaim.Proofs.FileTree
import VolumeClaim.Proofs.Path.Way

/-!
# What a tree must have for a path to lead somewhere

A path leads to its place as soon as all places on its way are directories.  Making the
directories of a path makes just that true, and makes nothing beside the way.

* `reaches_of_makeDirectories` after directories were made, their path leads to them;
* `isDirectory_of_makeDirectories` and all that is new is on the way;
* `exists_makeDirectories` they can be made if no file is on the way;
* `find?_join`             one more name is found there if something has it;
* `Extends.find?`          what is found is found again in a tree that has more.
-/

namespace VolumeClaim.FileTree
open Text Location VolumeClaim.Path

/-- all places on the way of the path are directories -/
def Reaches (t : FileTree) (path : Text) : Prop := ∀ l ∈ way path, t.isDirectory l = true

theorem isDirectory_start (t : FileTree) (path : Text) : t.isDirectory (start path) = true := by
  unfold start
  split <;> rfl

theorem isDirectory_addDirectory (t : FileTree) (l m : Location) :
    (t.addDirectory l).isDirectory m = true ↔ t.isDirectory m = true ∨ m = l := by
  simp [isDirectory, addDirectory, or_assoc]

/-! ## Making directories -/

section
variable {t : FileTree} {l m : Location} {made : Bool} {components : List Text}

theorem isDirectory_makeAlong (h : t.isDirectory m = true) (l : Location) (made : Bool)
    (components : List Text) : (t.makeAlong l made components).2.isDirectory m = true := by
  fun_induction makeAlong t l made components with
  | case1 => exact h
  | case2 _ _ _ _ _ _ _ ih => exact ih h
  | case3 => exact h
  | case4 _ _ _ _ _ _ _ _ ih => exact ih ((isDirectory_addDirectory _ _ _).mpr (.inl h))

theorem isDirectory_of_makeAlong
    (h : (t.makeAlong l made components).2.isDirectory m = true) :
    t.isDirectory m = true ∨ m ∈ components.scanl follow l := by
  fun_induction makeAlong t l made components with
  | case1 => exact .inl h
  | case2 _ _ _ _ _ _ _ ih => exact (ih h).imp_right fun hm => mem_scanl_follow_cons.mpr (.inr hm)
  | case3 => exact .inl h
  | case4 t l made component rest next _ _ ih =>
    rcases ih h with h | h
    · rcases (isDirectory_addDirectory _ _ _).mp h with h | rfl
      · exact .inl h
      · -- the directory that was made is the second place on the way
        exact .inr (mem_scanl_follow_cons.mpr (.inr (mem_scanl_follow_self _ _)))
    · exact .inr (mem_scanl_follow_cons.mpr (.inr h))

theorem isDirectory_of_makeAlong_ok {t' : FileTree} {place : Location} (hl : t.isDirectory l = true)
    (h : t.makeAlong l made components = (.ok place, t')) :
    ∀ m ∈ components.scanl follow l, t'.isDirectory m = true := by
  fun_induction makeAlong t l made components with
  | case1 t l made =>
    cases h
    intro m hm
    obtain rfl := List.mem_singleton.mp hm
    exact hl
  | case2 t l made component rest next hnext ih =>
    intro m hm
    rcases mem_scanl_follow_cons.mp hm with rfl | hm
    · have hkept := isDirectory_makeAlong hl next made rest
      rw [h] at hkept
      exact hkept
    · exact ih hnext h m hm
  | case3 => cases h
  | case4 t l made component rest next _ _ ih =>
    have hmade : ∀ m, t.isDirectory m = true ∨ m = next →
        (t.addDirectory next).isDirectory m = true := fun m => (isDirectory_addDirectory t next m).mpr
    intro m hm
    rcases mem_scanl_follow_cons.mp hm with rfl | hm
    · have hkept := isDirectory_makeAlong (hmade m (.inl hl)) next true rest
      rw [h] at hkept
      exact hkept
    · exact ih (hmade next (.inr rfl)) h m hm

theorem exists_makeAlong (h : ∀ m ∈ components.scanl follow l, t.isFile m = false) :
    ∃ place t', t.makeAlong l made components = (.ok place, t') := by
  fun_induction makeAlong t l made components with
  | case1 t l => exact ⟨l, t, rfl⟩
  | case2 _ _ _ _ _ _ _ ih => exact ih fun m hm => h m (mem_scanl_follow_cons.mpr (.inr hm))
  | case3 t l made component rest next _ hfile =>
    have hnext : next ∈ (component :: rest).scanl follow l :=
      mem_scanl_follow_cons.mpr (.inr (mem_scanl_follow_self _ _))
    exact absurd hfile (Bool.eq_false_iff.mp (h next hnext))
  | case4 _ _ _ _ _ _ _ _ ih => exact ih fun m hm => h m (mem_scanl_follow_cons.mpr (.inr hm))

end

section
variable {t t' : FileTree} {path : Text}

theorem isDirectory_makeDirectories {m : Location} (h : t.isDirectory m = true) :
    (t.makeDirectories path).2.isDirectory m = true := by
  unfold makeDirectories
  dsimp only
  split
  · exact h
  · exact isDirectory_makeAlong h _ _ _

theorem isDirectory_of_makeDirectories {m : Location}
    (h : (t.makeDirectories path).2.isDirectory m = true) :
    t.isDirectory m = true ∨ m ∈ way path := by
  unfold makeDirectories at h
  dsimp only at h
  split at h
  · exact .inl h
  · exact isDirectory_of_makeAlong h

theorem reaches_of_makeDirectories {place : Location}
    (h : t.makeDirectories path = (.ok place, t')) : t'.Reaches path := by
  unfold makeDirectories at h
  dsimp only at h
  split at h
  · cases h
  · exact isDirectory_of_makeAlong_ok (isDirectory_start t _) h

theorem exists_makeDirectories (hne : path.untilZero ≠ [])
    (h : ∀ m ∈ way path, t.isFile m = false) :
    ∃ place t', t.makeDirectories path = (.ok place, t') := by
  unfold makeDirectories
  dsimp only
  rw [if_neg hne]
  exact exists_makeAlong h

end

/-! ## Finding what is there -/

section
variable {t : FileTree}

theorem follow?_of_isDirectory {components : List Text} {l : Location}
    (h : ∀ m ∈ components.scanl follow l, t.isDirectory m = true) :
    t.follow? l components = some (components.foldl follow l) := by
  induction components generalizing l with
  | nil => rfl
  | cons component rest ih =>
    rw [follow?, if_pos (h l (mem_scanl_follow_self _ _)), List.foldl_cons]
    exact ih fun m hm => h m (mem_scanl_follow_cons.mpr (.inr hm))

theorem follow?_concat (l : Location) (components : List Text) (component : Text) :
    t.follow? l (components ++ [component]) = (t.follow? l components).bind fun m =>
      if t.isDirectory m then some (m.follow component) else none := by
  induction components generalizing l with
  | nil => rfl
  | cons first rest ih =>
    rw [List.cons_append, follow?, follow?]
    by_cases hl : t.isDirectory l = true
    · rw [if_pos hl, if_pos hl, ih]
    · rw [if_neg hl, if_neg hl, Option.bind_none]

theorem find?_join {directory component : Text} (h : t.Reaches directory) (hd : 0 ∉ directory)
    (hc : 0 ∉ component) (hs : separator ∉ component) (hne : component ≠ []) :
    t.find? (join directory component) =
      (some ((ofPath directory).follow component)).filter t.isOccupied := by
  obtain ⟨components, hjoin, hdirectory⟩ := exists_components_join hs directory
  have hzero := zero_notMem_join hd hc
  have hplace := ofPath_join hd hc hs
  rw [ofPath_of_notMem hzero, hjoin, start_join hs, List.foldl_append] at hplace
  have hway : ∀ m ∈ components.scanl follow (start directory), t.isDirectory m = true := by
    intro m hm
    apply h
    rw [way_of_notMem hd]
    rcases hdirectory with h | h
    · rw [h]
      exact hm
    · rw [h, mem_scanl_follow_concat_nil]
      exact hm
  unfold find?
  dsimp only
  rw [untilZero_eq_self hzero, if_neg (join_ne_nil hne directory), hjoin, start_join hs, follow?_concat,
    follow?_of_isDirectory hway, Option.bind_some,
    if_pos (hway _ (foldl_follow_mem_scanl _ _)), ← hplace]
  rfl

end

theorem hasFile_iff {t : FileTree} {path : Text} :
    t.hasFile path = true ↔ ∃ l, t.find? path = some l ∧ t.isFile l = true := by
  unfold hasFile
  cases t.find? path with
  | none => simp
  | some l => simp

/-! ## Trees that grow -/

/-- the second tree has all that the first one has -/
structure Extends (t t' : FileTree) : Prop where
  directory : ∀ l, t.isDirectory l = true → t'.isDirectory l = true
  file : ∀ l contents, t.contents? l = some contents → t'.contents? l = some contents

theorem Extends.trans {t t' t'' : FileTree} (h : t.Extends t') (h' : t'.Extends t'') :
    t.Extends t'' where
  directory l hl := h'.directory l (h.directory l hl)
  file l contents hl := h'.file l contents (h.file l contents hl)

theorem extends_makeDirectories (t : FileTree) (path : Text) :
    t.Extends (t.makeDirectories path).2 where
  directory _ hl := isDirectory_makeDirectories hl
  file l contents hl := by
    unfold contents? at hl ⊢
    rw [files_makeDirectories]
    exact hl

theorem extends_addFile (t : FileTree) (l : Location) (contents : Text) :
    t.Extends (t.addFile l contents) where
  directory _ hl := hl
  file m text hm := by
    show (t.files ++ [(l, contents)]).lookup m = some text
    unfold contents? at hm
    rw [List.lookup_append, hm, Option.some_or]

section
variable {t t' : FileTree} (h : t.Extends t')
include h

theorem Extends.isOccupied {l : Location} (hl : t.isOccupied l = true) :
    t'.isOccupied l = true := by
  unfold FileTree.isOccupied isFile at hl ⊢
  rw [Bool.or_eq_true, Option.isSome_iff_exists] at hl ⊢
  rcases hl with hl | ⟨contents, hl⟩
  · exact .inl (h.directory l hl)
  · exact .inr ⟨contents, h.file l contents hl⟩

theorem Extends.follow? {components : List Text} {l place : Location}
    (hl : t.follow? l components = some place) : t'.follow? l components = some place := by
  induction components generalizing l with
  | nil => exact hl
  | cons component rest ih =>
    rw [FileTree.follow?] at hl ⊢
    by_cases hdirectory : t.isDirectory l = true
    · rw [if_pos hdirectory] at hl
      rw [if_pos (h.directory l hdirectory)]
      exact ih hl
    · rw [if_neg hdirectory] at hl
      cases hl

theorem Extends.find? {path : Text} {l : Location} (hl : t.find? path = some l) :
    t'.find? path = some l := by
  unfold FileTree.find? at hl ⊢
  dsimp only at hl ⊢
  by_cases hnil : path.untilZero = []
  · rw [if_pos hnil] at hl
    cases hl
  · rw [if_neg hnil] at hl ⊢
    obtain ⟨hfollow, hoccupied⟩ := Option.filter_eq_some_iff.mp hl
    exact Option.filter_eq_some_iff.mpr ⟨h.follow? hfollow, h.isOccupied hoccupied⟩

theorem Extends.hasFile {path : Text} (hpath : t.hasFile path = true) :
    t'.hasFile path = true := by
  obtain ⟨l, hfind, hfile⟩ := hasFile_iff.mp hpath
  obtain ⟨contents, hcontents⟩ := Option.isSome_iff_exists.mp hfile
  have hkept := h.file l contents hcontents
  exact hasFile_iff.mpr ⟨l, h.find? hfind, Option.isSome_iff_exists.mpr ⟨contents, hkept⟩⟩

end

end VolumeClaim.FileTree
