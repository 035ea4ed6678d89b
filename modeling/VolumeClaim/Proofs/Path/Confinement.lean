import VolumeClaim.Proofs.Path.Place

/-!
# Claims stay below their root

A path is made for two texts that can be names, and then leads two names on from the root; texts
that lead elsewhere give no path.

* `flaw?_eq_some_iff`, `claimPath_eq_error_iff` what is refused, and for which fault;
* `components_claimPath`   the names on the path of a claim;
* `claimPath_confined`     every path there is stays below the root, and no other claim has it.
-/

namespace VolumeClaim.Path
open Text

/-! ## What is refused -/

/-- what keeps a text from being a name -/
inductive HasFlaw (t : Text) : Flaw → Prop where
  | empty (nil : t = []) : HasFlaw t .empty
  | invalidByte (mem : byte '/' ∈ t ∨ byte '\\' ∈ t ∨ 0 ∈ t) : HasFlaw t .invalidByte
  | relative (dots : t = ascii "." ∨ t = ascii "..") : HasFlaw t .relative

theorem flaw?_eq_some_iff {t : Text} {flaw : Flaw} : flaw? t = some flaw ↔ HasFlaw t flaw := by
  constructor
  · intro h
    unfold flaw? at h
    split at h
    · rename_i hnil
      cases h
      exact .empty hnil
    split at h
    · rename_i hany
      cases h
      exact .invalidByte (any_isForbidden_iff.mp hany)
    split at h
    · rename_i hdots
      cases h
      exact .relative hdots
    · cases h
  · intro h
    cases h with
    | empty nil => exact if_pos nil
    | invalidByte mem =>
      have hne : t ≠ [] := by
        rintro rfl
        rcases mem with h | h | h <;> exact List.not_mem_nil h
      rw [flaw?, if_neg hne, if_pos (any_isForbidden_iff.mpr mem)]
    | relative dots => rcases dots with rfl | rfl <;> rfl

theorem checkComponent_eq_error_iff {role : Role} {t : Text} {fault : Fault} :
    checkComponent role t = .error fault ↔ ∃ flaw, HasFlaw t flaw ∧ fault = ⟨role, flaw⟩ := by
  simp only [← flaw?_eq_some_iff]
  unfold checkComponent
  cases flaw? t with
  | none => simp
  | some flaw => simp [eq_comm]

/-- the fault of two texts without a path; the namespace is looked at first -/
inductive Refused (namespaceName name : Text) : Fault → Prop where
  | namespaceName {flaw : Flaw} (flawed : HasFlaw namespaceName flaw) :
    Refused namespaceName name ⟨.namespaceName, flaw⟩
  | claimName {flaw : Flaw} (component : IsComponent namespaceName) (flawed : HasFlaw name flaw) :
    Refused namespaceName name ⟨.claimName, flaw⟩

theorem claimPath_eq_error_iff {root namespaceName name : Text} {fault : Fault} :
    claimPath root namespaceName name = .error fault ↔ Refused namespaceName name fault := by
  unfold claimPath
  rw [bind_eq_error_iff, checkComponent_eq_error_iff]
  constructor
  · rintro (⟨flaw, hflaw, rfl⟩ | ⟨_, hspace, hname⟩)
    · exact .namespaceName hflaw
    · rw [checkComponent_eq_ok_iff, flaw?_eq_none_iff_isComponent] at hspace
      rcases bind_eq_error_iff.mp hname with hname | ⟨_, _, hdone⟩
      · obtain ⟨flaw, hflaw, rfl⟩ := checkComponent_eq_error_iff.mp hname
        exact .claimName hspace hflaw
      · cases hdone
  · intro h
    cases h with
    | namespaceName flawed => exact .inl ⟨_, flawed, rfl⟩
    | claimName component flawed =>
      refine .inr ⟨(), ?_, bind_eq_error_iff.mpr (.inl ?_)⟩
      · rwa [checkComponent_eq_ok_iff, flaw?_eq_none_iff_isComponent]
      · exact checkComponent_eq_error_iff.mpr ⟨_, flawed, rfl⟩

theorem exists_claimPath_iff {root namespaceName name : Text} :
    (∃ path, claimPath root namespaceName name = .ok path) ↔
      IsComponent namespaceName ∧ IsComponent name := by
  simp only [claimPath_eq_ok_iff, flaw?_eq_none_iff_isComponent, exists_and_left, exists_eq,
    and_true]

/-! ## Where a path leads -/

/-- the names on a path, the first one first; separators next to each other are one -/
def components (path : Text) : List Text := (split separator path).filter fun t => !t.isEmpty

theorem components_join {component : Text} (hne : component ≠ []) (h : separator ∉ component)
    (directory : Text) : components (join directory component) =
      components directory ++ [component] := by
  obtain ⟨names, hjoin, hdirectory⟩ := Location.exists_components_join h directory
  have hkept : [component].filter (fun t => !t.isEmpty) = [component] := by
    simpa using hne
  unfold components
  rw [hjoin, List.filter_append, hkept]
  rcases hdirectory with hdirectory | hdirectory
  · rw [hdirectory]
  · rw [hdirectory, List.filter_append]
    simp

theorem getLast?_join {component : Text} (hne : component ≠ []) (directory : Text) :
    (join directory component).getLast? = component.getLast? := by
  have hlast := List.getLast?_eq_some_getLast hne
  unfold join
  split
  · rw [List.getLast?_append, hlast, Option.some_or]
  · rw [List.getLast?_append, List.getLast?_cons_of_ne_nil hne, hlast, Option.some_or]

/-- the second name follows the first one after a separator -/
theorem join_join {component : Text} (hne : component ≠ []) (h : separator ∉ component)
    (directory file : Text) : join (join directory component) file =
      join directory (component ++ separator :: file) := by
  have hopen : ¬ (join directory component = [] ∨
      (join directory component).getLast? = some separator) := by
    rintro (hnil | hend)
    · exact join_ne_nil hne directory hnil
    · rw [getLast?_join hne] at hend
      exact h (List.mem_of_getLast? hend)
  rw [join, if_neg hopen]
  unfold join
  split <;> simp

section
variable {root namespaceName name path : Text} (h : claimPath root namespaceName name = .ok path)
include h

theorem components_claimPath :
    components path = components root ++ [namespaceName, name ++ ascii ".json"] := by
  obtain ⟨hspace, hname, rfl⟩ := claimPath_eq_ok_iff.mp h
  have hfile := flaw?_fileName hname
  rw [components_join (flaw?_eq_none_iff.mp hfile).1 (separator_notMem_of_flaw? hfile),
    components_join (flaw?_eq_none_iff.mp hspace).1 (separator_notMem_of_flaw? hspace),
    List.append_assoc]
  rfl

theorem claimPath_eq_join :
    path = join root (namespaceName ++ separator :: (name ++ ascii ".json")) := by
  obtain ⟨hspace, -, rfl⟩ := claimPath_eq_ok_iff.mp h
  exact join_join (flaw?_eq_none_iff.mp hspace).1 (separator_notMem_of_flaw? hspace) root _

theorem place_of_claimPath (hr : 0 ∉ root) : Location.ofPath path =
    ((Location.ofPath root).child namespaceName).child (name ++ ascii ".json") :=
  (Location.ofPath_of_claimPath h).trans (if_neg hr)

theorem isWithin_of_claimPath : (Location.ofPath path).IsWithin (Location.ofPath root) := by
  rw [Location.ofPath_of_claimPath h]
  split
  · exact Location.isWithin_self _
  · exact Location.isWithin_ofClaim root namespaceName name

/-- no two claims have one path -/
theorem eq_of_claimPath_eq {otherNamespace other : Text}
    (h' : claimPath root otherNamespace other = .ok path) :
    namespaceName = otherNamespace ∧ name = other := by
  have hnames := (components_claimPath h).symm.trans (components_claimPath h')
  have hlast := List.append_cancel_left hnames
  rw [List.cons.injEq, List.cons.injEq] at hlast
  exact ⟨hlast.1, List.append_cancel_right hlast.2.1⟩

end

/-- the path leads two names on from the root, to no place above it -/
structure Confined (root namespaceName name path : Text) : Prop where
  text_of_ended : root = [] ∨ root.getLast? = some separator →
    path = root ++ (namespaceName ++ separator :: (name ++ ascii ".json"))
  text : ¬ (root = [] ∨ root.getLast? = some separator) →
    path = root ++ separator :: (namespaceName ++ separator :: (name ++ ascii ".json"))
  components : components path = components root ++ [namespaceName, name ++ ascii ".json"]
  directory : namespaceName ≠ ascii "." ∧ namespaceName ≠ ascii ".."
  file : name ++ ascii ".json" ≠ ascii "." ∧ name ++ ascii ".json" ≠ ascii ".."
  place : 0 ∉ root → Location.ofPath path =
    ((Location.ofPath root).child namespaceName).child (name ++ ascii ".json")
  within : (Location.ofPath path).IsWithin (Location.ofPath root)

theorem confined_of_claimPath {root namespaceName name path : Text}
    (h : claimPath root namespaceName name = .ok path) :
    Confined root namespaceName name path := by
  obtain ⟨hspace, hname, -⟩ := claimPath_eq_ok_iff.mp h
  have hpath := claimPath_eq_join h
  constructor
  case text_of_ended => exact fun hended => hpath.trans (if_pos hended)
  case text => exact fun hopen => hpath.trans (if_neg hopen)
  case components => exact components_claimPath h
  case directory => exact (flaw?_eq_none_iff.mp hspace).2.2
  case file => exact (flaw?_eq_none_iff.mp (flaw?_fileName hname)).2.2
  case place => exact place_of_claimPath h
  case within => exact isWithin_of_claimPath h

/-- **A claim has a path exactly if its namespace and its name can be names of files; the path leads
two names on from the root, whatever the root is, and no other claim has it.** -/
theorem claimPath_confined (root namespaceName name : Text) :
    ((∃ path, claimPath root namespaceName name = .ok path) ↔
      IsComponent namespaceName ∧ IsComponent name) ∧
    (∀ fault, claimPath root namespaceName name = .error fault ↔
      Refused namespaceName name fault) ∧
    (∀ path, claimPath root namespaceName name = .ok path →
      Confined root namespaceName name path ∧ ∀ otherNamespace other,
        claimPath root otherNamespace other = .ok path →
          namespaceName = otherNamespace ∧ name = other) :=
  ⟨exists_claimPath_iff, fun _ => claimPath_eq_error_iff,
    fun _ h => ⟨confined_of_claimPath h, fun _ _ => eq_of_claimPath_eq h⟩⟩

end VolumeClaim.Path
