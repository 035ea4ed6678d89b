import VolumeClaim.Value

/-!
# The texts of a value

`Value.texts` lists the texts of a value, those of its items and fields included; the keys of
fields are not among them.  `Value.mapTexts` puts other values in their place.

* `mapTexts_eq_self_iff` nothing changes if every text stays itself, and only then;
* `Value.Ordered`        the keys ascend in every object of the value.
-/

namespace VolumeClaim.Value

mutual

def texts : Value → List Text
  | .text t => [t]
  | .list items => itemTexts items
  | .object fields => fieldTexts fields
  | _ => []

def itemTexts : List Value → List Text
  | [] => []
  | v :: items => v.texts ++ itemTexts items

def fieldTexts : List (Text × Value) → List Text
  | [] => []
  | (_, v) :: fields => v.texts ++ fieldTexts fields

end

mutual

def mapTexts (f : Text → Value) : Value → Value
  | .text t => f t
  | .list items => .list (mapItemTexts f items)
  | .object fields => .object (mapFieldTexts f fields)
  | v => v

def mapItemTexts (f : Text → Value) : List Value → List Value
  | [] => []
  | v :: items => v.mapTexts f :: mapItemTexts f items

def mapFieldTexts (f : Text → Value) : List (Text × Value) → List (Text × Value)
  | [] => []
  | (key, v) :: fields => (key, v.mapTexts f) :: mapFieldTexts f fields

end

mutual

/-- the keys ascend in every object -/
def Ordered : Value → Prop
  | .list items => OrderedItems items
  | .object fields => Keyed.Ascending fields ∧ OrderedFields fields
  | _ => True

def OrderedItems : List Value → Prop
  | [] => True
  | v :: items => v.Ordered ∧ OrderedItems items

def OrderedFields : List (Text × Value) → Prop
  | [] => True
  | (_, v) :: fields => v.Ordered ∧ OrderedFields fields

end

section
variable {f : Text → Value}

mutual

theorem mapTexts_eq_self_iff (v : Value) : v.mapTexts f = v ↔ ∀ t ∈ v.texts, f t = .text t := by
  match v with
  | .null | .bool _ | .number _ => simp [mapTexts, texts]
  | .text t => simp [mapTexts, texts]
  | .list items => simp [mapTexts, texts, mapItemTexts_eq_self_iff items]
  | .object fields => simp [mapTexts, texts, mapFieldTexts_eq_self_iff fields]

theorem mapItemTexts_eq_self_iff (items : List Value) :
    mapItemTexts f items = items ↔ ∀ t ∈ itemTexts items, f t = .text t := by
  match items with
  | [] => simp [mapItemTexts, itemTexts]
  | v :: items =>
    simp [mapItemTexts, itemTexts, mapTexts_eq_self_iff v, mapItemTexts_eq_self_iff items,
      or_imp, forall_and]

theorem mapFieldTexts_eq_self_iff (fields : List (Text × Value)) :
    mapFieldTexts f fields = fields ↔ ∀ t ∈ fieldTexts fields, f t = .text t := by
  match fields with
  | [] => simp [mapFieldTexts, fieldTexts]
  | (key, v) :: fields =>
    simp [mapFieldTexts, fieldTexts, mapTexts_eq_self_iff v, mapFieldTexts_eq_self_iff fields,
      or_imp, forall_and]

end

/-- the keys stay -/
theorem ascending_mapFieldTexts_iff (fields : List (Text × Value)) :
    Keyed.Ascending (mapFieldTexts f fields) ↔ Keyed.Ascending fields := by
  have hkeys : (mapFieldTexts f fields).map Prod.fst = fields.map Prod.fst := by
    induction fields with
    | nil => rfl
    | cons field fields ih => rw [mapFieldTexts, List.map_cons, List.map_cons, ih]
  rw [Keyed.ascending_iff, Keyed.ascending_iff, hkeys]

end

/-! ## Objects made of fields -/

/-- some of the keys in their order, with ordered values -/
def Fields (keys : List Text) (fields : List (Text × Value)) : Prop :=
  (fields.map Prod.fst).Sublist keys ∧ OrderedFields fields

theorem orderedFields_append {xs ys : List (Text × Value)} (hx : OrderedFields xs)
    (hy : OrderedFields ys) : OrderedFields (xs ++ ys) := by
  induction xs with
  | nil => exact hy
  | cons x xs ih => exact ⟨hx.1, ih hx.2⟩

section
variable {keys : List Text} {fields : List (Text × Value)}

theorem Fields.append {keys' : List Text} {fields' : List (Text × Value)} (h : Fields keys fields)
    (h' : Fields keys' fields') : Fields (keys ++ keys') (fields ++ fields') := by
  refine ⟨?_, orderedFields_append h.2 h'.2⟩
  rw [List.map_append]
  exact h.1.append h'.1

theorem Fields.ordered (h : Fields keys fields) (hkeys : keys.Pairwise (· < ·)) :
    (object fields).Ordered :=
  ⟨Keyed.ascending_iff.mpr (hkeys.sublist h.1), h.2⟩

end

section
variable (key : String)

theorem fields_nil : Fields [ascii key] [] := ⟨List.nil_sublist _, trivial⟩

theorem fields_singleton {v : Value} (h : v.Ordered) : Fields [ascii key] [(ascii key, v)] :=
  ⟨List.Sublist.refl _, h, trivial⟩

theorem fields_textField (t : Text) : Fields [ascii key] (textField key t) := by
  rw [textField]
  split
  · exact fields_nil key
  · exact fields_singleton key trivial

theorem fields_textsField (ts : List Text) : Fields [ascii key] (textsField key ts) := by
  have hitems : OrderedItems (ts.map .text) := by
    induction ts with
    | nil => trivial
    | cons t ts ih => exact ⟨trivial, ih⟩
  rw [textsField]
  split
  · exact fields_nil key
  · exact fields_singleton key hitems

theorem fields_mapField (m : TextMap) : Fields [ascii key] (mapField key m) := by
  have hfields (entries : List (Text × Text)) :
      OrderedFields (entries.map fun e => (e.1, .text e.2)) := by
    induction entries with
    | nil => trivial
    | cons e entries ih => exact ⟨trivial, ih⟩
  have hascending : Keyed.Ascending (m.entries.map fun e => (e.1, Value.text e.2)) :=
    List.pairwise_map.mpr m.ascending
  rw [mapField]
  split
  · exact fields_nil key
  · exact fields_singleton key ⟨hascending, hfields m.entries⟩

theorem fields_partField {α : Type} {write : α → Value} (h : ∀ x, (write x).Ordered)
    (part : Option α) : Fields [ascii key] (partField key (part.map write)) := by
  cases part with
  | none => exact fields_nil key
  | some x => exact fields_singleton key (h x)

end

end VolumeClaim.Value
