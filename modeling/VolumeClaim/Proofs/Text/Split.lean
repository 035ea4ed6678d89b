import Mathlib
import VolumeClaim.Text.Split

/-!
# Separated parts

Splitting goes from one place of the separator to the next, and what stands between two of them is a
part.

* `partsFrom_eq_split`  the walk over the places cuts off the parts of `split`, one after another;
* `split_inverts_join`  these are the only separated parts that the text is joined of, and of any
  list just a separated one comes back.
-/

namespace VolumeClaim.Text

/-- at least one part, and no separator in any of them -/
structure Separated (separator : UInt8) (parts : List Text) : Prop where
  ne_nil : parts ≠ []
  separator_notMem : ∀ part ∈ parts, separator ∉ part

/-- the first place of the separator that is not before `start` -/
def nextPlace? (separator : UInt8) (t : Text) (start : ℕ) : Option ℕ :=
  ((t.drop start).idxOf? separator).map fun distance => start + distance

section
variable {separator : UInt8} {t : Text}

theorem separator_notMem_drop {start : ℕ} (h : nextPlace? separator t start = none) :
    separator ∉ t.drop start :=
  List.idxOf?_eq_none_iff.mp (Option.map_eq_none_iff.mp h)

theorem bounds_of_nextPlace? {start place : ℕ} (h : nextPlace? separator t start = some place) :
    start ≤ place ∧ place < t.length := by
  obtain ⟨distance, hdistance, rfl⟩ := Option.map_eq_some_iff.mp h
  obtain ⟨hlt, -, -⟩ := List.idxOf?_eq_some_iff.mp hdistance
  rw [List.length_drop] at hlt
  omega

/-- what stands before the next place, the separator there, and what is left -/
theorem cut_of_nextPlace? {start place : ℕ} (h : nextPlace? separator t start = some place) :
    separator ∉ (t.drop start).take (place - start) ∧
      t.drop start = (t.drop start).take (place - start) ++ separator :: t.drop (place + 1) := by
  obtain ⟨distance, hdistance, rfl⟩ := Option.map_eq_some_iff.mp h
  obtain ⟨hlt, hat, hbefore⟩ := List.idxOf?_eq_some_iff.mp hdistance
  rw [Nat.add_sub_cancel_left]
  constructor
  · intro hmem
    obtain ⟨j, hj, hjat⟩ := List.mem_take_iff_getElem.mp hmem
    exact hbefore j (by omega) hjat
  · have hrest : (t.drop start).drop distance = separator :: t.drop (start + distance + 1) := by
      rw [List.drop_eq_getElem_cons hlt, hat, List.drop_drop, Nat.add_assoc]
    rw [← hrest, List.take_append_drop]

end

/-- the parts from a place on: each one ends before the next separator, the last one with the
text -/
def partsFrom (separator : UInt8) (t : Text) (start : ℕ) : List Text :=
  match h : nextPlace? separator t start with
  | none => [t.drop start]
  | some place =>
    have := bounds_of_nextPlace? h
    (t.drop start).take (place - start) :: partsFrom separator t (place + 1)
termination_by t.length - start

theorem partsFrom_eq_split (separator : UInt8) (t : Text) (start : ℕ) :
    partsFrom separator t start = split separator (t.drop start) := by
  rw [split_eq_splitOn]
  fun_induction partsFrom separator t start with
  | case1 start h => rw [List.splitOn_eq_singleton (separator_notMem_drop h)]
  | case2 start place h _ ih =>
    obtain ⟨hpart, hcut⟩ := cut_of_nextPlace? h
    rw [ih, hcut, List.splitOn_append_cons_self_of_not_mem hpart, ← hcut]

theorem eq_split_iff_separated {separator : UInt8} {t : Text} {parts : List Text} :
    parts = split separator t ↔
      Separated separator parts ∧ [separator].intercalate parts = t := by
  rw [eq_split_iff, join_eq_intercalate]
  constructor
  · rintro ⟨hne, hnotMem, hjoin⟩
    exact ⟨⟨hne, hnotMem⟩, hjoin⟩
  · rintro ⟨hparts, hjoin⟩
    exact ⟨hparts.ne_nil, hparts.separator_notMem, hjoin⟩

/-- **Splitting is the inverse of joining**: the parts that are cut off from place to place are the
one separated list that joins to the text, and a list is given back from its join exactly if it is
separated. -/
theorem split_inverts_join (separator : UInt8) (t : Text) (parts : List Text) :
    partsFrom separator t 0 = split separator t ∧
      (parts = split separator t ↔
        Separated separator parts ∧ [separator].intercalate parts = t) ∧
      (split separator ([separator].intercalate parts) = parts ↔ Separated separator parts) := by
  refine ⟨partsFrom_eq_split separator t 0, eq_split_iff_separated, ?_⟩
  rw [eq_comm, eq_split_iff_separated]
  exact and_iff_left rfl

example : split (byte ',') (ascii ",a,,b") = [[], ascii "a", [], ascii "b"] := by decide

end VolumeClaim.Text
