import Mathlib.Data.List.Basic
import Mathlib.Data.List.TakeWhile
import VolumeClaim.Text

/-!
# Cutting texts

* `untilZero_eq_self`, `untilZero_append` a text without zero bytes is handed on whole, and what
  stands behind it is cut as it would be alone;
* `untilZero_append_of_mem` nothing is handed on from behind a zero byte.
-/

namespace VolumeClaim.Text

/-! ## Up to a zero byte -/

theorem zero_notMem_untilZero (t : Text) : 0 ∉ untilZero t := by
  intro h
  rw [untilZero] at h
  have hne := List.mem_takeWhile_imp h
  exact of_decide_eq_true hne rfl

section
variable {s : Text} (h : 0 ∉ s)
include h

theorem ne_zero_of_mem : ∀ b ∈ s, decide (b ≠ 0) = true := fun _ hb =>
  decide_eq_true (ne_of_mem_of_not_mem hb h)

theorem untilZero_eq_self : untilZero s = s :=
  List.takeWhile_eq_self_iff.mpr (ne_zero_of_mem h)

theorem untilZero_append (t : Text) : untilZero (s ++ t) = s ++ untilZero t :=
  List.takeWhile_append_of_pos (ne_zero_of_mem h)

end

theorem untilZero_append_of_mem {s : Text} (h : 0 ∈ s) (t : Text) :
    untilZero (s ++ t) = untilZero s := by
  have hcut : (untilZero s).length ≠ s.length := fun hlength => by
    rw [← (List.takeWhile_prefix _).eq_of_length hlength] at h
    exact zero_notMem_untilZero s h
  exact List.takeWhile_append.trans (if_neg hcut)

/-! ## Behind a prefix -/

theorem isPrefixOf?_append (lead rest : Text) : lead.isPrefixOf? (lead ++ rest) = some rest :=
  List.isPrefixOf?_eq_some_iff_append_eq.mpr rfl

end VolumeClaim.Text
