import VolumeClaim.Proofs.Path.Place

/-!
# The places on the way of a path

A path leads through one place after another, and each but the last must be a directory.  The
places on the way are those that making directories makes.  A root with two dots in its path can
lead through places below itself and out of them again; a root without them cannot.

* `mem_way_join`           one more component adds one place;
* `mem_way_directory`      the way to a claim's directory is the way to the root and one step more;
* `isWithin_of_mem_way`    a path without two dots only ever leads further in;
* `ofClaim_notMem_way`     the way to a root without two dots passes no claim.
-/

namespace VolumeClaim.Location
open Text VolumeClaim.Path

/-- the places on the way of a path, from its start to its end -/
def way (path : Text) : List Location :=
  (split separator path.untilZero).scanl follow (start path.untilZero)

theorem way_of_notMem {path : Text} (h : 0 ∉ path) :
    way path = (split separator path).scanl follow (start path) := by
  rw [way, untilZero_eq_self h]

theorem mem_scanl_follow_cons {l m : Location} {component : Text} {rest : List Text} :
    m ∈ (component :: rest).scanl follow l ↔ m = l ∨ m ∈ rest.scanl follow (l.follow component) := by
  rw [List.scanl_cons, List.mem_cons]

theorem mem_scanl_follow_self (l : Location) (components : List Text) :
    l ∈ components.scanl follow l := by
  cases components with
  | nil => exact List.mem_singleton_self l
  | cons component rest => exact mem_scanl_follow_cons.mpr (.inl rfl)

theorem scanl_follow_concat (l : Location) (components : List Text) (component : Text) :
    (components ++ [component]).scanl follow l =
      components.scanl follow l ++ [(components.foldl follow l).follow component] := by
  rw [List.scanl_append]
  rfl

theorem foldl_follow_mem_scanl (l : Location) (components : List Text) :
    components.foldl follow l ∈ components.scanl follow l := by
  rw [← List.getLast_scanl (h := List.scanl_ne_nil)]
  exact List.getLast_mem _

/-- an empty component leads nowhere new -/
theorem mem_scanl_follow_concat_nil (l m : Location) (components : List Text) :
    m ∈ (components ++ [[]]).scanl follow l ↔ m ∈ components.scanl follow l := by
  rw [scanl_follow_concat, List.mem_append, List.mem_singleton, follow_nil]
  apply or_iff_left_of_imp
  rintro rfl
  exact foldl_follow_mem_scanl l components

theorem mem_way_join {directory component : Text} (hd : 0 ∉ directory) (hc : 0 ∉ component)
    (hs : separator ∉ component) (l : Location) : l ∈ way (join directory component) ↔
      l ∈ way directory ∨ l = (ofPath directory).follow component := by
  obtain ⟨components, hjoin, hdirectory⟩ := exists_components_join hs directory
  rw [way_of_notMem (zero_notMem_join hd hc), way_of_notMem hd, ofPath_of_notMem hd, hjoin, start_join hs,
    scanl_follow_concat, List.mem_append, List.mem_singleton]
  rcases hdirectory with h | h
  · rw [h]
  · rw [h, mem_scanl_follow_concat_nil, List.foldl_append]
    rfl

theorem mem_way_directory {root namespaceName : Text} (hr : 0 ∉ root)
    (hn : flaw? namespaceName = none) (l : Location) : l ∈ way (join root namespaceName) ↔
      l ∈ way root ∨ l = (ofPath root).child namespaceName := by
  rw [mem_way_join hr (zero_notMem_of_flaw? hn) (separator_notMem_of_flaw? hn),
    follow_of_flaw?_eq_none hn]

/-! ## Ways that do not turn back -/

theorem isWithin_follow {component : Text} (h : component ≠ ascii "..") (l : Location) :
    (l.follow component).IsWithin l := by
  unfold follow
  rw [if_neg h]
  split
  · exact isWithin_self l
  · exact (isWithin_self l).child component

section
variable {components : List Text} (h : ascii ".." ∉ components)
include h

theorem isWithin_foldl (l : Location) : (components.foldl follow l).IsWithin l := by
  induction components generalizing l with
  | nil => exact isWithin_self l
  | cons component rest ih =>
    simp only [List.mem_cons, not_or] at h
    exact (ih h.2 _).trans (isWithin_follow (Ne.symm h.1) l)

theorem isWithin_of_mem_scanl {l m : Location} (hm : m ∈ components.scanl follow l) :
    (components.foldl follow l).IsWithin m := by
  induction components generalizing l with
  | nil =>
    obtain rfl := List.mem_singleton.mp hm
    exact isWithin_self m
  | cons component rest ih =>
    rcases mem_scanl_follow_cons.mp hm with rfl | hm
    · exact isWithin_foldl h m
    · exact ih (fun hmem => h (List.mem_cons_of_mem _ hmem)) hm

end

theorem isWithin_of_mem_way {path : Text} (h : ascii ".." ∉ split separator path.untilZero)
    {l : Location} (hl : l ∈ way path) : (ofPath path).IsWithin l :=
  isWithin_of_mem_scanl h hl

theorem ofClaim_notMem_way {root : Text} (h : ascii ".." ∉ split separator root.untilZero)
    (namespaceName name : Text) : ofClaim root namespaceName name ∉ way root := by
  intro hmem
  have hwithin : (ofPath root).IsWithin (ofClaim root namespaceName name) :=
    isWithin_of_mem_way h hmem
  have hlength : (ofClaim root namespaceName name).names.length = (ofPath root).names.length + 2 := rfl
  have hle := hwithin.2.length_le
  omega

end VolumeClaim.Location
