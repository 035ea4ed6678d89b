import VolumeClaim.Path.Location
import VolumeClaim.Proofs.Except
import VolumeClaim.Proofs.Text

/-!
# The places that paths name

A path is followed one component at a time, and every component that is there or that can be made
leads where its text says.  So the place of a path can be told from the path alone.

* `ofPath_join`            one more component leads one step on;
* `ofPath_join_of_zero`    nothing that follows a zero byte leads anywhere;
* `ofPath_of_claimPath`    a claim's path names its own place below the root, or the root itself;
* `claimPath_eq_ok_iff`    and there is one for names that can be components.
-/

namespace VolumeClaim

namespace Path

theorem zero_mem_join_iff {directory component : Text} :
    0 ∈ join directory component ↔ 0 ∈ directory ∨ 0 ∈ component := by
  have hseparator : (0 : UInt8) ≠ separator := by decide
  unfold join
  split <;> simp [hseparator]

theorem zero_notMem_join {directory component : Text} (hd : 0 ∉ directory) (hc : 0 ∉ component) :
    0 ∉ join directory component := fun h => (zero_mem_join_iff.mp h).elim hd hc

theorem join_ne_nil {component : Text} (h : component ≠ []) (directory : Text) :
    join directory component ≠ [] := by
  unfold join
  split <;> simp [h]

end Path

namespace Location
open Text VolumeClaim.Path

/-- the place that a path names, if it names one -/
def ofPath (path : Text) : Location :=
  (split separator path.untilZero).foldl follow (start path.untilZero)

/-- the place is the other one, or below it -/
def IsWithin (l outer : Location) : Prop := l.anchor = outer.anchor ∧ outer.names <:+ l.names

theorem isWithin_self (l : Location) : l.IsWithin l := ⟨rfl, List.suffix_rfl⟩

theorem IsWithin.trans {l m outer : Location} (h : l.IsWithin m) (h' : m.IsWithin outer) :
    l.IsWithin outer :=
  ⟨h.1.trans h'.1, h'.2.trans h.2⟩

theorem IsWithin.child {l outer : Location} (h : l.IsWithin outer) (name : Text) :
    (l.child name).IsWithin outer :=
  ⟨h.1, h.2.trans (List.suffix_cons name l.names)⟩

theorem start_append {s : Text} (h : s ≠ []) (t : Text) : start (s ++ t) = start s := by
  cases s with
  | nil => exact absurd rfl h
  | cons b s => rfl

theorem start_of_notMem {t : Text} (h : separator ∉ t) : start t = workingDirectory := by
  refine if_neg fun hhead => h ?_
  exact List.mem_of_mem_head? (Option.mem_def.mpr hhead)

theorem ofPath_of_notMem {t : Text} (h : 0 ∉ t) :
    ofPath t = (split separator t).foldl follow (start t) := by
  rw [ofPath, untilZero_eq_self h]

section
variable {component : Text} (h : separator ∉ component)
include h

/-- one more component comes last; the separator that a directory may end with has no name after
it, and so no component of its own -/
theorem exists_components_join (directory : Text) : ∃ components,
    split separator (join directory component) = components ++ [component] ∧
      (split separator directory = components ∨
        split separator directory = components ++ [[]]) := by
  have hcomponent : component.splitOn separator = [component] := List.splitOn_eq_singleton h
  have hnone : ([] : Text).splitOn separator = [[]] := List.splitOn_nil separator
  unfold Path.join
  rw [split_eq_splitOn, split_eq_splitOn]
  by_cases hnil : directory = []
  · refine ⟨[], ?_, .inr ?_⟩
    · rw [if_pos (.inl hnil), hnil, List.nil_append, hcomponent, List.nil_append]
    · rw [hnil, hnone, List.nil_append]
  by_cases hlast : directory.getLast? = some separator
  · obtain ⟨front, rfl⟩ := List.getLast?_eq_some_iff.mp hlast
    refine ⟨front.splitOn separator, ?_, .inr ?_⟩
    · rw [if_pos (.inr hlast), List.append_assoc, List.singleton_append,
        List.splitOn_append_cons_self, hcomponent]
    · rw [List.splitOn_append_cons_self, hnone]
  · refine ⟨directory.splitOn separator, ?_, .inl rfl⟩
    rw [if_neg (not_or.mpr ⟨hnil, hlast⟩), List.splitOn_append_cons_self, hcomponent]

theorem start_join (directory : Text) : start (join directory component) = start directory := by
  unfold Path.join
  by_cases hnil : directory = []
  · rw [if_pos (.inl hnil), hnil, List.nil_append, start_of_notMem h]
    rfl
  · split <;> exact start_append hnil _

end

theorem ofPath_join {directory component : Text} (hd : 0 ∉ directory) (hc : 0 ∉ component)
    (hs : separator ∉ component) :
    ofPath (join directory component) = (ofPath directory).follow component := by
  obtain ⟨components, hjoin, hdirectory⟩ := exists_components_join hs directory
  have hplace : components.foldl follow (start directory) = ofPath directory := by
    rw [ofPath_of_notMem hd]
    rcases hdirectory with h | h
    · rw [h]
    · rw [h, List.foldl_append]
      rfl
  rw [ofPath_of_notMem (zero_notMem_join hd hc), hjoin, start_join hs, List.foldl_append, hplace]
  rfl

theorem ofPath_join_of_zero {directory : Text} (hd : 0 ∈ directory) (component : Text) :
    ofPath (join directory component) = ofPath directory := by
  unfold Path.join
  split <;> rw [ofPath, ofPath, untilZero_append_of_mem hd]

end Location

namespace Path
open Text

theorem flaw?_eq_none_iff {t : Text} :
    flaw? t = none ↔ t ≠ [] ∧ (∀ b ∈ t, isForbidden b = false) ∧ t ≠ ascii "." ∧ t ≠ ascii ".." := by
  unfold flaw?
  by_cases hnil : t = []
  · simp [hnil]
  by_cases hany : t.any isForbidden = true
  · rw [if_neg hnil, if_pos hany]
    obtain ⟨b, hb, hforbidden⟩ := List.any_eq_true.mp hany
    refine ⟨nofun, fun h => ?_⟩
    exact absurd hforbidden (Bool.eq_false_iff.mp (h.2.1 b hb))
  · rw [if_neg hnil, if_neg hany]
    simpa [hnil] using fun _ _ b hb => List.any_eq_false.mp (Bool.eq_false_iff.mpr hany) b hb

/-- the text can be one name on a path -/
def IsComponent (t : Text) : Prop :=
  t ≠ [] ∧ (byte '/' ∉ t ∧ byte '\\' ∉ t ∧ 0 ∉ t) ∧ t ≠ ascii "." ∧ t ≠ ascii ".."

theorem any_isForbidden_iff {t : Text} :
    t.any isForbidden = true ↔ byte '/' ∈ t ∨ byte '\\' ∈ t ∨ 0 ∈ t := by
  rw [List.any_eq_true]
  constructor
  · rintro ⟨b, hb, hforbidden⟩
    have hcases : b = byte '/' ∨ b = byte '\\' ∨ b = 0 := by
      simpa [isForbidden, or_assoc] using hforbidden
    rcases hcases with rfl | rfl | rfl
    · exact .inl hb
    · exact .inr (.inl hb)
    · exact .inr (.inr hb)
  · rintro (h | h | h)
    · exact ⟨_, h, by decide⟩
    · exact ⟨_, h, by decide⟩
    · exact ⟨_, h, by decide⟩

theorem flaw?_eq_none_iff_isComponent {t : Text} : flaw? t = none ↔ IsComponent t := by
  have hbytes : (∀ b ∈ t, isForbidden b = false) ↔ byte '/' ∉ t ∧ byte '\\' ∉ t ∧ 0 ∉ t := by
    rw [← not_or, ← not_or, ← any_isForbidden_iff, Bool.not_eq_true, List.any_eq_false]
    simp only [Bool.not_eq_true]
  rw [flaw?_eq_none_iff, hbytes]
  rfl

instance (t : Text) : Decidable (IsComponent t) :=
  decidable_of_iff _ flaw?_eq_none_iff_isComponent

section
variable {t : Text} (h : flaw? t = none)
include h

theorem zero_notMem_of_flaw? : 0 ∉ t := fun hmem =>
  absurd ((flaw?_eq_none_iff.mp h).2.1 0 hmem) (by decide)

theorem separator_notMem_of_flaw? : separator ∉ t := fun hmem =>
  absurd ((flaw?_eq_none_iff.mp h).2.1 separator hmem) (by decide)

/-- the name of the file of a component is a component -/
theorem flaw?_fileName : flaw? (fileName t) = none := by
  obtain ⟨-, hbytes, -⟩ := flaw?_eq_none_iff.mp h
  have hlength : (fileName t).length = t.length + 5 := List.length_append
  refine flaw?_eq_none_iff.mpr ⟨?_, ?_, ?_, ?_⟩
  · exact List.append_ne_nil_of_right_ne_nil t (by decide)
  · intro b hb
    have hsuffix : (ascii ".json").any isForbidden = false := by decide
    rcases List.mem_append.mp hb with hb | hb
    · exact hbytes b hb
    · exact Bool.eq_false_iff.mpr (List.any_eq_false.mp hsuffix b hb)
  -- neither dot text is long enough
  · intro hdot
    rw [hdot] at hlength
    have hone : (ascii ".").length = 1 := rfl
    omega
  · intro hdots
    rw [hdots] at hlength
    have htwo : (ascii "..").length = 2 := rfl
    omega

end

theorem checkComponent_eq_ok_iff {role : Role} {t : Text} {done : Unit} :
    checkComponent role t = .ok done ↔ flaw? t = none := by
  unfold checkComponent
  cases flaw? t <;> simp

theorem claimPath_eq_ok_iff {root namespaceName name path : Text} :
    claimPath root namespaceName name = .ok path ↔ flaw? namespaceName = none ∧
      flaw? name = none ∧ path = join (join root namespaceName) (fileName name) := by
  unfold claimPath
  simp only [bind_eq_ok_iff, checkComponent_eq_ok_iff, exists_and_left, exists_const]
  refine and_congr_right fun _ => and_congr_right fun _ => ?_
  constructor
  · intro h
    cases h
    rfl
  · rintro rfl
    rfl

end Path

namespace Location
open VolumeClaim.Path

/-- the place of a claim's file -/
def ofClaim (root namespaceName name : Text) : Location :=
  ((ofPath root).child namespaceName).child (fileName name)

theorem ofPath_directory {root namespaceName : Text} (hr : 0 ∉ root)
    (hn : flaw? namespaceName = none) :
    ofPath (join root namespaceName) = (ofPath root).child namespaceName := by
  rw [ofPath_join hr (zero_notMem_of_flaw? hn) (separator_notMem_of_flaw? hn),
    follow_of_flaw?_eq_none hn]

/-- different claims have different places -/
theorem ofClaim_inj {root namespaceName name otherNamespace other : Text} :
    ofClaim root namespaceName name = ofClaim root otherNamespace other ↔
      namespaceName = otherNamespace ∧ name = other := by
  unfold ofClaim fileName
  rw [child_inj, child_inj, List.append_left_inj]
  exact and_congr_left fun _ => and_iff_right rfl

theorem ofClaim_ne_child (root namespaceName name other : Text) :
    ofClaim root namespaceName name ≠ (ofPath root).child other := by
  intro h
  have hlength := congrArg (fun l : Location => l.names.length) h
  simp [ofClaim, child] at hlength

theorem ofClaim_ne_ofPath (root namespaceName name : Text) :
    ofClaim root namespaceName name ≠ ofPath root := by
  intro h
  have hlength := congrArg (fun l : Location => l.names.length) h
  simp only [ofClaim, child, List.length_cons] at hlength
  omega

theorem isWithin_ofClaim (root namespaceName name : Text) :
    (ofClaim root namespaceName name).IsWithin (ofPath root) :=
  ((isWithin_self _).child _).child _

theorem ofPath_of_claimPath {root namespaceName name path : Text}
    (h : claimPath root namespaceName name = .ok path) :
    ofPath path = if 0 ∈ root then ofPath root else ofClaim root namespaceName name := by
  obtain ⟨hn, hname, rfl⟩ := claimPath_eq_ok_iff.mp h
  have hfile := flaw?_fileName hname
  by_cases hr : 0 ∈ root
  · rw [if_pos hr, ofPath_join_of_zero (zero_mem_join_iff.mpr (.inl hr)), ofPath_join_of_zero hr]
  · have hjoin := zero_notMem_join hr (zero_notMem_of_flaw? hn)
    rw [if_neg hr, ofPath_join hjoin (zero_notMem_of_flaw? hfile) (separator_notMem_of_flaw? hfile),
      ofPath_directory hr hn, follow_of_flaw?_eq_none hfile]
    rfl

end Location
end VolumeClaim
