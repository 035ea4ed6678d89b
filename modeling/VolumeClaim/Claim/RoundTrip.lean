import VolumeClaim.Claim.Document
import VolumeClaim.Value.Json.RoundTrip

/-!
# Claims are read back from what is written

* `Claim.ofDocument?_document` a claim is read back from its value, so the value loses nothing:
  an absent part and an empty one stay apart;
* `Claim.ofJson?_json`         a claim is read back from its JSON.

`Value.Reads` follows the reading of the fields of an object from record to record.
-/

namespace VolumeClaim
open Value (textField textsField mapField partField)

namespace Value

/-! ## Fields -/

/-- reading the fields turns one record into another -/
def Reads {α : Type} (step : α → Text → Value → Option α) (start : α)
    (fields : List (Text × Value)) (stop : α) : Prop :=
  fields.foldlM (fun record field => step record field.1 field.2) start = some stop

section
variable {α : Type} {step : α → Text → Value → Option α} {a b c : α} {key : String}

theorem Reads.append {xs ys : List (Text × Value)} (h : Reads step a xs b)
    (h' : Reads step b ys c) : Reads step a (xs ++ ys) c := by
  rw [Reads] at h h' ⊢
  rw [List.foldlM_append, h]
  exact h'

theorem reads_textField {t : Text} (hnil : t = [] → a = b)
    (h : step a (ascii key) (.text t) = some b) : Reads step a (textField key t) b := by
  rw [textField]
  split
  · rename_i e
    exact congrArg some (hnil e)
  · simp [Reads, h]

theorem reads_textsField {ts : List Text} (hnil : ts = [] → a = b)
    (h : step a (ascii key) (.list (ts.map .text)) = some b) :
    Reads step a (textsField key ts) b := by
  rw [textsField]
  split
  · rename_i e
    exact congrArg some (hnil e)
  · simp [Reads, h]

theorem reads_mapField {m : TextMap} (hnil : m = .empty → a = b)
    (h : step a (ascii key) (.object (m.entries.map fun e => (e.1, .text e.2))) = some b) :
    Reads step a (mapField key m) b := by
  rw [mapField]
  split
  · rename_i e
    exact congrArg some (hnil (TextMap.eq_empty e))
  · simp [Reads, h]

theorem reads_partField {part : Option Value} (hnone : part = none → a = b)
    (h : ∀ v, part = some v → step a (ascii key) v = some b) :
    Reads step a (partField key part) b := by
  cases part with
  | none => exact congrArg some (hnone rfl)
  | some v => simp [Reads, partField, h v rfl]

end

/-! ## Values without numbers -/

theorem noNumbersFields_append (xs ys : List (Text × Value)) :
    noNumbersFields (xs ++ ys) = (noNumbersFields xs && noNumbersFields ys) := by
  induction xs with
  | nil => rfl
  | cons x xs ih => simp [noNumbersFields, ih, Bool.and_assoc]

theorem noNumbersFields_textField (key : String) (t : Text) :
    noNumbersFields (textField key t) = true := by
  rw [textField]
  split <;> rfl

theorem noNumbersFields_textsField (key : String) (ts : List Text) :
    noNumbersFields (textsField key ts) = true := by
  have items : noNumbersItems (ts.map .text) = true := by
    induction ts with
    | nil => rfl
    | cons t ts ih => exact ih
  rw [textsField]
  split
  · rfl
  · simp [noNumbersFields, noNumbers, items]

theorem noNumbersFields_mapField (key : String) (m : TextMap) :
    noNumbersFields (mapField key m) = true := by
  have fields (entries : List (Text × Text)) :
      noNumbersFields (entries.map fun e => (e.1, .text e.2)) = true := by
    induction entries with
    | nil => rfl
    | cons e entries ih => exact ih
  rw [mapField]
  split
  · rfl
  · simp [noNumbersFields, noNumbers, fields]

theorem noNumbersFields_partField (key : String) {α : Type} {write : α → Value}
    (h : ∀ x, (write x).noNumbers = true) (part : Option α) :
    noNumbersFields (partField key (part.map write)) = true := by
  cases part with
  | none => rfl
  | some x => simp [partField, noNumbersFields, h]

end Value

/-! ## Claims -/

theorem Metadata.ofDocument?_document (m : Metadata) : ofDocument? m.document = some m := by
  have annotations : Value.Reads readField .empty (mapField "annotations" m.annotations)
      { Metadata.empty with annotations := m.annotations } :=
    Value.reads_mapField (fun e => by rw [e]; rfl) (by
      rw [readField, if_neg (by decide), if_neg (by decide), if_pos rfl,
        Value.mapOr_object]; rfl)
  have name : Value.Reads readField { Metadata.empty with annotations := m.annotations }
      (textField "name" m.name) { m with namespaceName := [] } :=
    Value.reads_textField (fun e => by rw [e]; rfl) (by rw [readField, if_pos rfl]; rfl)
  have namespaceName : Value.Reads readField { m with namespaceName := [] }
      (textField "namespace" m.namespaceName) m :=
    Value.reads_textField (fun e => by rw [← e]) (by
      rw [readField, if_neg (by decide), if_pos rfl]; rfl)
  exact (annotations.append name).append namespaceName

theorem Resources.ofDocument?_document (r : Resources) : ofDocument? r.document = some r := by
  have limits : Value.Reads readField .empty (mapField "limits" r.limits)
      { r with requests := .empty } :=
    Value.reads_mapField (fun e => by rw [e]; rfl) (by
      rw [readField, if_pos rfl, Value.mapOr_object]; rfl)
  have requests : Value.Reads readField { r with requests := .empty }
      (mapField "requests" r.requests) r :=
    Value.reads_mapField (fun e => by rw [← e]) (by
      rw [readField, if_neg (by decide), if_pos rfl, Value.mapOr_object]; rfl)
  exact limits.append requests

theorem ClaimSpec.ofDocument?_document (s : ClaimSpec) : ofDocument? s.document = some s := by
  have accessModes : Value.Reads readField .empty (textsField "accessModes" s.accessModes)
      { ClaimSpec.empty with accessModes := s.accessModes } :=
    Value.reads_textsField (fun e => by rw [e]; rfl) (by
      rw [readField, if_pos (.inl rfl), Value.textsOr, Value.texts?_map]; rfl)
  have resources : Value.Reads readField { ClaimSpec.empty with accessModes := s.accessModes }
      (partField "resources" (s.resources.map Resources.document))
      { s with storageClass := none } :=
    Value.reads_partField (fun e => by rw [Option.map_eq_none_iff.mp e]; rfl) fun v e => by
      obtain ⟨r, hr, rfl⟩ := Option.map_eq_some_iff.mp e
      rw [readField, if_neg (by decide), if_pos rfl, hr]
      show ((Resources.ofDocument? r.document).map some).map _ = _
      rw [Resources.ofDocument?_document]
      rfl
  have storageClass : Value.Reads readField { s with storageClass := none }
      (partField "storageClassName" (s.storageClass.map .text)) s :=
    Value.reads_partField (fun e => by rw [← Option.map_eq_none_iff.mp e]) fun v e => by
      obtain ⟨t, ht, rfl⟩ := Option.map_eq_some_iff.mp e
      rw [readField, if_neg (by decide), if_neg (by decide), if_pos (.inl rfl)]
      show some { s with storageClass := some t } = some s
      rw [← ht]
  exact (accessModes.append resources).append storageClass

/-- a claim is read back from the value that it is written as -/
theorem Claim.ofDocument?_document (c : Claim) : ofDocument? c.document = some c := by
  have apiVersion : Value.Reads readField .empty (textField "apiVersion" c.apiVersion)
      { Claim.empty with apiVersion := c.apiVersion } :=
    Value.reads_textField (fun e => by rw [e]; rfl) (by rw [readField, if_pos (.inl rfl)]; rfl)
  have kind : Value.Reads readField { Claim.empty with apiVersion := c.apiVersion }
      (textField "kind" c.kind) { c with metadata := none, spec := none } :=
    Value.reads_textField (fun e => by rw [e]; rfl) (by
      rw [readField, if_neg (by decide), if_pos rfl]; rfl)
  have metadata : Value.Reads readField { c with metadata := none, spec := none }
      (partField "metadata" (c.metadata.map Metadata.document)) { c with spec := none } :=
    Value.reads_partField (fun e => by rw [Option.map_eq_none_iff.mp e]) fun v e => by
      obtain ⟨m, hm, rfl⟩ := Option.map_eq_some_iff.mp e
      rw [readField, if_neg (by decide), if_neg (by decide), if_pos rfl, hm]
      show ((Metadata.ofDocument? m.document).map some).map _ = _
      rw [Metadata.ofDocument?_document]
      rfl
  have spec : Value.Reads readField { c with spec := none }
      (partField "spec" (c.spec.map ClaimSpec.document)) c :=
    Value.reads_partField (fun e => by rw [← Option.map_eq_none_iff.mp e]) fun v e => by
      obtain ⟨s, hs, rfl⟩ := Option.map_eq_some_iff.mp e
      rw [readField, if_neg (by decide), if_neg (by decide), if_neg (by decide), if_pos rfl]
      show ((ClaimSpec.ofDocument? s.document).map some).map _ = _
      rw [ClaimSpec.ofDocument?_document, Option.map_some, Option.map_some, ← hs]
  exact ((apiVersion.append kind).append metadata).append spec

/-! ## Text -/

theorem Metadata.noNumbers_document (m : Metadata) : m.document.noNumbers = true := by
  simp [document, Value.noNumbers, Value.noNumbersFields_append, Value.noNumbersFields_mapField,
    Value.noNumbersFields_textField]

theorem Resources.noNumbers_document (r : Resources) : r.document.noNumbers = true := by
  simp [document, Value.noNumbers, Value.noNumbersFields_append, Value.noNumbersFields_mapField]

theorem ClaimSpec.noNumbers_document (s : ClaimSpec) : s.document.noNumbers = true := by
  have noNumbers_text (t : Text) : (Value.text t).noNumbers = true := rfl
  simp [document, Value.noNumbers, Value.noNumbersFields_append, Value.noNumbersFields_textsField,
    Value.noNumbersFields_partField _ Resources.noNumbers_document,
    Value.noNumbersFields_partField _ noNumbers_text]

theorem Claim.noNumbers_document (c : Claim) : c.document.noNumbers = true := by
  simp [document, Value.noNumbers, Value.noNumbersFields_append, Value.noNumbersFields_textField,
    Value.noNumbersFields_partField _ Metadata.noNumbers_document,
    Value.noNumbersFields_partField _ ClaimSpec.noNumbers_document]

/-- a claim is read back from its JSON -/
theorem Claim.ofJson?_json (c : Claim) : ofJson? c.json = some c := by
  rw [ofJson?, json, Value.ofJson?_json _ c.noNumbers_document]
  exact c.ofDocument?_document

theorem Claim.ofJson_json (c : Claim) : ofJson c.json = .ok c := by
  rw [ofJson, ofJson?_json]

end VolumeClaim
