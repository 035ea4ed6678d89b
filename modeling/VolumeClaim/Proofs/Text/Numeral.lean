import Mathlib
import VolumeClaim.Text.Numeral

/-!
# Reading signs and numerals

* `readSign_of_unsigned` a text without a sign in front is read as it stands;
* `Numeral.read_whole`, `Numeral.read_pointed` the longest numeral is read, whatever follows;
* `Numeral.read_cons_of_pos`, `Numeral.read_cons_point`, `Numeral.read_cons_of_neg` the first byte
  decides;
* `Numeral.read_spec`  and nothing is lost: the text is the numeral and what is left.
-/

namespace VolumeClaim.Text

/-- no byte of the kind in front -/
def Stops (p : UInt8 → Bool) (t : Text) : Prop := ∀ b ∈ t.head?, p b = false

theorem stops_nil (p : UInt8 → Bool) : Stops p [] := by simp [Stops]

theorem stops_cons {p : UInt8 → Bool} {b : UInt8} (h : p b = false) (t : Text) :
    Stops p (b :: t) := by
  intro x hx
  rw [List.head?_cons, Option.mem_some_iff] at hx
  rw [← hx]
  exact h

theorem readSign_of_unsigned {t : Text} (h : ∀ b ∈ t.head?, b ≠ byte '-' ∧ b ≠ byte '+') :
    readSign t = (false, t) := by
  cases t with
  | nil => rfl
  | cons b t =>
    obtain ⟨hm, hp⟩ := h b rfl
    rw [readSign, if_neg hm, if_neg hp]

theorem readSign_minus (t : Text) : readSign (byte '-' :: t) = (true, t) := rfl

theorem readSign_plus (t : Text) : readSign (byte '+' :: t) = (false, t) := rfl

section
variable {p : UInt8 → Bool} {w rest : Text} (hw : w.all p = true)
include hw

theorem takeWhile_append (hr : Stops p rest) : (w ++ rest).takeWhile p = w := by
  rw [List.takeWhile_append_of_pos (List.all_eq_true.mp hw)]
  cases rest with
  | nil => simp
  | cons b rest => simp [hr b rfl]

theorem dropWhile_append (hr : Stops p rest) : (w ++ rest).dropWhile p = rest := by
  rw [List.dropWhile_append_of_pos (List.all_eq_true.mp hw)]
  cases rest with
  | nil => rfl
  | cons b rest => simp [hr b rfl]

theorem Numeral.read_whole (hr : Stops p rest) (hdot : rest.head? ≠ some (byte '.')) :
    Numeral.read p (w ++ rest) = (⟨w, []⟩, rest) := by
  unfold Numeral.read
  rw [takeWhile_append hw hr, dropWhile_append hw hr]
  cases rest with
  | nil => rfl
  | cons b rest =>
    have hb : b ≠ byte '.' := fun e => hdot (congrArg some e)
    show (if b = byte '.' then _ else _) = _
    rw [if_neg hb]

theorem Numeral.read_pointed {f : Text} (hf : f.all p = true) (hr : Stops p rest)
    (hdot : p (byte '.') = false) :
    Numeral.read p (w ++ byte '.' :: (f ++ rest)) = (⟨w, f⟩, rest) := by
  have hpoint := stops_cons hdot (f ++ rest)
  unfold Numeral.read
  rw [takeWhile_append hw hpoint, dropWhile_append hw hpoint]
  show (if byte '.' = byte '.' then _ else _) = _
  rw [if_pos rfl, takeWhile_append hf hr, dropWhile_append hf hr]

end

/-! ## Byte by byte -/

section
variable {p : UInt8 → Bool} {b : UInt8} (t : Text)

theorem Numeral.read_cons_of_pos (h : p b = true) : Numeral.read p (b :: t) =
    (⟨b :: (Numeral.read p t).1.whole, (Numeral.read p t).1.fraction⟩, (Numeral.read p t).2) := by
  unfold Numeral.read
  rw [List.takeWhile_cons_of_pos h, List.dropWhile_cons_of_pos h]
  cases t.dropWhile p with
  | nil => rfl
  | cons c rest =>
    dsimp only
    split <;> rfl

theorem Numeral.read_cons_point (h : p (byte '.') = false) : Numeral.read p (byte '.' :: t) =
    (⟨[], t.takeWhile p⟩, t.dropWhile p) := by
  unfold Numeral.read
  rw [List.takeWhile_cons_of_neg (by simp [h]), List.dropWhile_cons_of_neg (by simp [h])]
  exact if_pos rfl

theorem Numeral.read_cons_of_neg (h : p b = false) (hb : b ≠ byte '.') :
    Numeral.read p (b :: t) = (⟨[], []⟩, b :: t) := by
  unfold Numeral.read
  rw [List.takeWhile_cons_of_neg (by simp [h]), List.dropWhile_cons_of_neg (by simp [h])]
  exact if_neg hb

end

/-! ## What was read -/

/-- the text is the numeral, with its point if it has one, and what is left -/
theorem Numeral.read_spec {p : UInt8 → Bool} {t rest : Text} {n : Numeral}
    (h : Numeral.read p t = (n, rest)) : n.whole.all p = true ∧ n.fraction.all p = true ∧
      (t = n.whole ++ rest ∧ n.fraction = [] ∨
        t = n.whole ++ byte '.' :: (n.fraction ++ rest)) := by
  have ht := List.takeWhile_append_dropWhile (p := p) (l := t)
  unfold Numeral.read at h
  dsimp only at h
  cases hd : t.dropWhile p with
  | nil =>
    rw [hd] at h ht
    cases h
    exact ⟨List.all_takeWhile, rfl, .inl ⟨ht.symm, rfl⟩⟩
  | cons b u =>
    rw [hd] at h ht
    dsimp only at h
    by_cases hb : b = byte '.'
    · rw [if_pos hb] at h
      cases h
      refine ⟨List.all_takeWhile, List.all_takeWhile, .inr ?_⟩
      rw [List.takeWhile_append_dropWhile, ← hb]
      exact ht.symm
    · rw [if_neg hb] at h
      cases h
      exact ⟨List.all_takeWhile, rfl, .inl ⟨ht.symm, rfl⟩⟩

theorem Numeral.length_digits_le_of_read {p : UInt8 → Bool} {t rest : Text} {n : Numeral}
    (h : Numeral.read p t = (n, rest)) : n.digits.length ≤ t.length := by
  obtain ⟨-, -, ⟨ht, hfraction⟩ | ht⟩ := Numeral.read_spec h
  · rw [ht, Numeral.digits, hfraction, List.append_nil, List.length_append]
    exact Nat.le_add_right _ _
  · rw [ht, Numeral.digits]
    simp only [List.length_append, List.length_cons]
    omega

theorem Numeral.length_fraction_le (n : Numeral) : n.fraction.length ≤ n.digits.length := by
  rw [Numeral.digits, List.length_append]
  exact Nat.le_add_left _ _

end VolumeClaim.Text
