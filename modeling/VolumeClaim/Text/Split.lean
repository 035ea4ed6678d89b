import VolumeClaim.Text

/-!
# Splitting at a separator

`split` cuts a text at every occurrence of one byte and keeps empty parts, so that a text with
`n` separators has `n + 1` parts; `join` puts a separator between parts.  They are the splitting
and joining of lists at one element (`split_eq_splitOn`, `join_eq_intercalate`), and so inverse to
each other: the parts are the only texts without separators that a text can be joined of
(`eq_split_iff`).
-/

namespace VolumeClaim.Text

/-- the parts between the separators, empty ones kept; never the empty list -/
def split (separator : UInt8) : Text → List Text
  | [] => [[]]
  | b :: rest =>
    if b = separator then [] :: split separator rest
    else match split separator rest with
      | [] => [[b]]
      | part :: parts => (b :: part) :: parts

/-- the parts with a separator between every two of them -/
def join (separator : UInt8) : List Text → Text
  | [] => []
  | [part] => part
  | part :: next :: parts => part ++ separator :: join separator (next :: parts)

section
variable (separator : UInt8)

theorem split_eq_splitOn (t : Text) : split separator t = t.splitOn separator := by
  fun_induction split separator t with
  | case1 => exact (List.splitOn_nil separator).symm
  | case2 rest ih =>
    rw [List.splitOn_cons_eq_if_modifyHead, if_pos (beq_self_eq_true separator), ih]
  | case3 b rest hb h ih => exact absurd (ih.symm.trans h) (List.splitOn_ne_nil separator rest)
  | case4 b rest hb part parts h ih =>
    rw [List.splitOn_cons_eq_if_modifyHead, if_neg (mt eq_of_beq hb), ← ih, h, List.modifyHead_cons]

theorem join_eq_intercalate (parts : List Text) :
    join separator parts = [separator].intercalate parts := by
  fun_induction join separator parts with
  | case1 => exact List.intercalate_nil.symm
  | case2 part => exact List.intercalate_singleton.symm
  | case3 part next parts ih =>
    rw [List.intercalate_cons_cons, ih, List.append_assoc, List.singleton_append]

/-- no part holds the separator -/
theorem separator_notMem_split (t : Text) : ∀ part ∈ split separator t, separator ∉ part := by
  fun_induction split separator t with
  | case1 => simp
  | case2 rest ih => simpa using ih
  | case3 b rest hb h _ => simpa using fun e => hb e.symm
  | case4 b rest hb part parts h ih =>
    rw [h] at ih
    have hb' : separator ≠ b := fun e => hb e.symm
    simpa [hb'] using ih

theorem length_split (t : Text) : (split separator t).length = t.count separator + 1 := by
  fun_induction split separator t with
  | case1 => rfl
  | case2 rest ih => rw [List.length_cons, ih, List.count_cons_self]
  | case3 b rest hb h ih =>
    rw [h] at ih
    cases ih
  | case4 b rest hb part parts h ih =>
    rw [List.count_cons_of_ne hb, ← ih, h]
    rfl

/-- the parts are the only texts without separators that a text can be joined of -/
theorem eq_split_iff {parts : List Text} {t : Text} : parts = split separator t ↔
    parts ≠ [] ∧ (∀ part ∈ parts, separator ∉ part) ∧ join separator parts = t := by
  rw [join_eq_intercalate]
  constructor
  · rintro rfl
    refine ⟨?_, separator_notMem_split separator t, ?_⟩
    · rw [split_eq_splitOn]
      exact List.splitOn_ne_nil separator t
    · rw [split_eq_splitOn, List.intercalate_splitOn]
  · rintro ⟨hne, h, rfl⟩
    rw [split_eq_splitOn, List.splitOn_intercalate separator h hne]

end

end VolumeClaim.Text
