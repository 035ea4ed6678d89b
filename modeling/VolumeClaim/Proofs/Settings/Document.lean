import VolumeClaim.Claim.RoundTrip
import VolumeClaim.Proofs.Node.Mapping
import VolumeClaim.Settings

/-!
# Settings and their documents

Settings that are written as quoted scalars are loaded as they were, and every text that is loaded
stands in the document: nothing else is ever turned into a text.

* `Value.Reads.keeps`   what reading the fields of an object keeps;
* `Settings.ofNode_written` written settings are read back;
* `Settings.holds_of_ofNode` where the text of a field comes from;
* `Settings.load_faithful` both, for the file at a path.
-/

namespace VolumeClaim

theorem Value.Reads.keeps {α : Type} {step : α → Text → Value → Option α} {P : α → Prop}
    {start stop : α} {fields : List (Text × Value)} (h : Reads step start fields stop)
    (hstart : P start)
    (hstep : ∀ e ∈ fields, ∀ a b, step a e.1 e.2 = some b → P a → P b) : P stop := by
  induction fields generalizing start with
  | nil =>
    cases h
    exact hstart
  | cons e fields ih =>
    rw [Reads, List.foldlM_cons, Option.bind_eq_bind, Option.bind_eq_some_iff] at h
    obtain ⟨next, hnext, hrest⟩ := h
    refine ih hrest (hstep e List.mem_cons_self start next hnext hstart) fun e he => ?_
    exact hstep e (List.mem_cons_of_mem _ he)

namespace Settings
open Node

/-! ## Fields -/

inductive Field where
  | level
  | pattern
  | namespaceName
  | rootPath
  deriving DecidableEq

namespace Field

def sectionName : Field → Text
  | .level | .pattern => ascii "logging"
  | .namespaceName => ascii "context"
  | .rootPath => ascii "store"

def keys : Field → List Text
  | .level => [ascii "level"]
  | .pattern => [ascii "pattern"]
  | .namespaceName => [ascii "namespace"]
  | .rootPath => [ascii "root_path", ascii "rootPath"]

def text (s : Settings) : Field → Text
  | .level => s.level
  | .pattern => s.pattern
  | .namespaceName => s.namespaceName
  | .rootPath => s.rootPath

def put (s : Settings) (t : Text) : Field → Settings
  | .level => { s with level := t }
  | .pattern => { s with pattern := t }
  | .namespaceName => { s with namespaceName := t }
  | .rootPath => { s with rootPath := t }

theorem text_put_self (s : Settings) (t : Text) (field : Field) :
    field.text (field.put s t) = t := by cases field <;> rfl

theorem text_put_of_ne (s : Settings) (t : Text) {field other : Field} (h : other ≠ field) :
    other.text (field.put s t) = other.text s := by
  cases field <;> cases other <;> first | rfl | exact absurd rfl h

theorem text_empty (field : Field) : field.text empty = [] := by cases field <;> rfl

end Field

/-! ## What one step of the reading changes -/

/-- a field keeps its text, or a value under one of its keys is its new text -/
def Sets (name : Text) (s s' : Settings) (key : Text) (v : Value) : Prop :=
  ∀ field : Field, field.text s' = field.text s ∨
    (field.sectionName = name ∧ key ∈ field.keys ∧ v = .text (field.text s'))

section
variable {s s' : Settings} {key : Text} {v : Value}

theorem sets_of_textOr {name : Text} (field : Field) (hname : field.sectionName = name)
    (hkey : key ∈ field.keys) (h : (v.textOr (field.text s)).map (field.put s) = some s') :
    Sets name s s' key v := by
  obtain ⟨t, ht, rfl⟩ := Option.map_eq_some_iff.mp h
  intro other
  by_cases hother : other = field
  · rw [hother, field.text_put_self]
    cases v with
    | null =>
      cases ht
      exact .inl rfl
    | text u =>
      cases ht
      exact .inr ⟨hname, hkey, rfl⟩
    | bool _ | number _ | list _ | object _ => cases ht
  · exact .inl (Field.text_put_of_ne s t hother)

theorem sets_of_readLogging (h : readLogging s key v = some s') :
    Sets (ascii "logging") s s' key v := by
  unfold readLogging at h
  by_cases hlevel : key = ascii "level"
  · rw [if_pos hlevel] at h
    exact sets_of_textOr .level rfl (List.mem_singleton.mpr hlevel) h
  rw [if_neg hlevel] at h
  by_cases hpattern : key = ascii "pattern"
  · rw [if_pos hpattern] at h
    exact sets_of_textOr .pattern rfl (List.mem_singleton.mpr hpattern) h
  · rw [if_neg hpattern] at h
    cases h

theorem sets_of_readContext (h : readContext s key v = some s') :
    Sets (ascii "context") s s' key v := by
  unfold readContext at h
  by_cases hkey : key = ascii "namespace"
  · rw [if_pos hkey] at h
    exact sets_of_textOr .namespaceName rfl (List.mem_singleton.mpr hkey) h
  · rw [if_neg hkey] at h
    cases h

theorem sets_of_readStore (h : readStore s key v = some s') :
    Sets (ascii "store") s s' key v := by
  unfold readStore at h
  by_cases hkey : key = ascii "root_path" ∨ key = ascii "rootPath"
  · rw [if_pos hkey] at h
    refine sets_of_textOr .rootPath rfl ?_ h
    exact List.mem_cons.mpr (hkey.imp_right List.mem_singleton.mpr)
  · rw [if_neg hkey] at h
    cases h

/-! ## Sections -/

/-- the fields hold this text under a key of the field -/
def Stores (fields : List (Text × Value)) (field : Field) (t : Text) : Prop :=
  ∃ key ∈ field.keys, (key, .text t) ∈ fields

/-- a field keeps its text, or the section that the value is has its new text -/
def SetsSection (name : Text) (s s' : Settings) (v : Value) : Prop :=
  ∀ field : Field, field.text s' = field.text s ∨
    (field.sectionName = name ∧ ∃ fields, v = .object fields ∧ Stores fields field (field.text s'))

theorem setsSection_of_readSection {name : Text} {read : Settings → Text → Value → Option Settings}
    (hread : ∀ s s' key v, read s key v = some s' → Sets name s s' key v)
    (h : readSection read s v = some s') : SetsSection name s s' v := by
  intro field
  cases v with
  | null =>
    cases h
    exact .inl rfl
  | object fields =>
    have hreads : Value.Reads read s fields s' := h
    apply hreads.keeps (P := fun stop => field.text stop = field.text s ∨
      (field.sectionName = name ∧ ∃ fields', Value.object fields = .object fields' ∧
        Stores fields' field (field.text stop)))
    · exact .inl rfl
    · intro e he a b hstep hbefore
      rcases hread a b e.1 e.2 hstep field with hkept | ⟨hname, hkey, hv⟩
      · rw [hkept]
        exact hbefore
      · exact .inr ⟨hname, fields, rfl, e.1, hkey, hv ▸ he⟩
  | bool _ | number _ | text _ | list _ => cases h

theorem setsSection_of_readField (h : readField s key v = some s') : SetsSection key s s' v := by
  unfold readField at h
  by_cases hlogging : key = ascii "logging"
  · rw [if_pos hlogging] at h
    rw [hlogging]
    exact setsSection_of_readSection (fun _ _ _ _ => sets_of_readLogging) h
  rw [if_neg hlogging] at h
  by_cases hcontext : key = ascii "context"
  · rw [if_pos hcontext] at h
    rw [hcontext]
    exact setsSection_of_readSection (fun _ _ _ _ => sets_of_readContext) h
  rw [if_neg hcontext] at h
  by_cases hstore : key = ascii "store"
  · rw [if_pos hstore] at h
    rw [hstore]
    exact setsSection_of_readSection (fun _ _ _ _ => sets_of_readStore) h
  · rw [if_neg hstore] at h
    cases h

end

/-- a text that is read stands in a section -/
theorem stores_of_ofDocument? {v : Value} {s : Settings} (h : ofDocument? v = some s)
    (field : Field) (hne : field.text s ≠ []) :
    ∃ sections fields, v = .object sections ∧ (field.sectionName, .object fields) ∈ sections ∧
      Stores fields field (field.text s) := by
  cases v with
  | object sections =>
    have hreads : Value.Reads readField empty sections s := h
    have hfound : field.text s = [] ∨ ∃ fields,
        (field.sectionName, Value.object fields) ∈ sections ∧
          Stores fields field (field.text s) := by
      apply hreads.keeps (P := fun stop => field.text stop = [] ∨ ∃ fields,
        (field.sectionName, Value.object fields) ∈ sections ∧
          Stores fields field (field.text stop))
      · exact .inl field.text_empty
      · intro e he a b hstep hbefore
        rcases setsSection_of_readField hstep field with hkept | ⟨hname, fields, hv, hstores⟩
        · rw [hkept]
          exact hbefore
        · refine .inr ⟨fields, ?_, hstores⟩
          rw [hname, ← hv]
          exact he
    obtain ⟨fields, hmem, hstores⟩ := hfound.resolve_left hne
    exact ⟨sections, fields, rfl, hmem, hstores⟩
  | null | bool _ | number _ | text _ | list _ => cases h

/-! ## Documents -/

/-- a document has the text of a field where it belongs, as a scalar that is nothing but a text -/
def Holds (document : Node) (field : Field) (t : Text) : Prop :=
  ∃ part, document.Has field.sectionName part ∧
    ∃ key ∈ field.keys, ∃ scalar, part.Has key scalar ∧ scalar.IsText t

/-- a mapping has settings if it has a value with finite numbers and known fields -/
theorem ofNode_map (entries : List (Node × Node)) : ofNode (.map entries) =
    ((Node.map entries).value.mapError .badKey).bind fun v =>
      if v.allFinite then (ofDocument? v).elim (.error .badContent) .ok
      else .error .badContent := by
  cases hvalue : (Node.map entries).value with
  | error fault =>
    simp only [ofNode, documentValue, hvalue]
    rfl
  | ok v =>
    simp only [ofNode, documentValue, hvalue]
    show (if !v.allFinite then _ else _) = if v.allFinite then _ else _
    cases v.allFinite with
    | false => rfl
    | true => cases ofDocument? v <;> rfl

theorem ofNode_map_eq_ok_iff {entries : List (Node × Node)} {s : Settings} :
    ofNode (.map entries) = .ok s ↔ ∃ v, (Node.map entries).value = .ok v ∧
      v.allFinite = true ∧ ofDocument? v = some s := by
  rw [ofNode_map]
  refine bind_eq_ok_iff.trans (exists_congr fun v => ?_)
  rw [mapError_eq_ok_iff]
  refine and_congr_right fun _ => ?_
  cases v.allFinite with
  | false => simp
  | true => cases ofDocument? v <;> simp

theorem holds_of_ofNode {node : Node} {s : Settings} (h : ofNode node = .ok s) (field : Field)
    (hne : field.text s ≠ []) : Holds node field (field.text s) := by
  cases node with
  | null =>
    cases h
    exact absurd field.text_empty hne
  | map entries =>
    obtain ⟨v, hv, -, hread⟩ := ofNode_map_eq_ok_iff.mp h
    obtain ⟨sections, fields, rfl, hsection, key, hkey, hfield⟩ :=
      stores_of_ofDocument? hread field hne
    obtain ⟨part, hpart, hfields⟩ := has_of_value_eq_object hv hsection
    obtain ⟨scalar, hscalar, htext⟩ := has_of_value_eq_object hfields hfield
    exact ⟨part, hpart, key, hkey, scalar, hscalar, isText_of_value_eq_text htext⟩
  | scalar _ _ | seq _ => cases h

/-- a document with the settings in their sections, as quoted scalars and in any order -/
inductive Written (s : Settings) (document : Node) : Prop
  | intro {logging context store : Node} {rootKey : Text}
    (hlogging : logging.Lists
      [(ascii "level", quoted s.level), (ascii "pattern", quoted s.pattern)])
    (hcontext : context.Lists [(ascii "namespace", quoted s.namespaceName)])
    (hstore : store.Lists [(rootKey, quoted s.rootPath)])
    (hrootKey : rootKey ∈ Field.rootPath.keys)
    (h : document.Lists
      [(ascii "context", context), (ascii "logging", logging), (ascii "store", store)])

/-- the value of such a document -/
def writtenValue (s : Settings) (rootKey : Text) : Value :=
  .object [
    (ascii "context", .object [(ascii "namespace", .text s.namespaceName)]),
    (ascii "logging", .object [(ascii "level", .text s.level), (ascii "pattern", .text s.pattern)]),
    (ascii "store", .object [(rootKey, .text s.rootPath)])]

theorem ofDocument?_writtenValue (s : Settings) {rootKey : Text}
    (h : rootKey ∈ Field.rootPath.keys) : ofDocument? (writtenValue s rootKey) = some s := by
  rcases List.mem_cons.mp h with rfl | h
  · rfl
  · rw [List.mem_singleton.mp h]
    rfl

theorem ofNode_written {s : Settings} {document : Node} (h : Written s document) :
    ofNode document = .ok s := by
  obtain @⟨logging, context, store, rootKey, hlogging, hcontext, hstore, hrootKey, h⟩ := h
  have hquoted : ∀ t, (quoted t).value = .ok (.text t) := fun t => rfl
  have hvalue : document.value = .ok (writtenValue s rootKey) := by
    refine h.value (.cons ⟨rfl, ?_⟩ (.cons ⟨rfl, ?_⟩ (.cons ⟨rfl, ?_⟩ .nil))) ?_
    · exact hcontext.value (.cons ⟨rfl, hquoted _⟩ .nil) (List.pairwise_singleton _ _)
    · apply hlogging.value (.cons ⟨rfl, hquoted _⟩ (.cons ⟨rfl, hquoted _⟩ .nil))
      apply Keyed.ascending_iff.mpr
      show List.Pairwise (· < ·) [ascii "level", ascii "pattern"]
      decide
    · exact hstore.value (.cons ⟨rfl, hquoted _⟩ .nil) (List.pairwise_singleton _ _)
    · apply Keyed.ascending_iff.mpr
      show List.Pairwise (· < ·) [ascii "context", ascii "logging", ascii "store"]
      decide
  obtain ⟨listed, rfl, -⟩ := h
  exact ofNode_map_eq_ok_iff.mpr ⟨_, hvalue, rfl, ofDocument?_writtenValue s hrootKey⟩

/-- Settings that are written are loaded as they were, and a text that is loaded stands in the
document under the section and a key of its field, quoted or as a plain scalar that is read as a
text. -/
theorem load_faithful {documents : Documents} {path : Text} {document : Node}
    (h : documents.lookup path = some document) :
    (∀ s, Written s document → load documents path = .ok s) ∧
      ∀ s, load documents path = .ok s → ∀ field : Field, field.text s ≠ [] →
        Holds document field (field.text s) := by
  have hload : load documents path = (ofNode document).mapError (.invalid path) := by
    rw [load, h]
  rw [hload]
  refine ⟨fun s hwritten => ?_, fun s hs => ?_⟩
  · exact mapError_eq_ok_iff.mpr (ofNode_written hwritten)
  · exact holds_of_ofNode (mapError_eq_ok_iff.mp hs)

/-- texts that would all be read as something else without their quotes -/
def oddSettings : Settings := ⟨ascii "2024", ascii "true", ascii "~", ascii "null"⟩

def oddDocument : Node :=
  .map [
    (plain (ascii "store"), .map [(plain (ascii "rootPath"), quoted (ascii "null"))]),
    (plain (ascii "logging"), .map [
      (plain (ascii "pattern"), quoted (ascii "true")),
      (plain (ascii "level"), quoted (ascii "2024"))]),
    (quoted (ascii "context"), .map [(plain (ascii "namespace"), quoted (ascii "~"))])]

theorem written_oddDocument : Written oddSettings oddDocument := by
  have hstore : (Node.map [(plain (ascii "rootPath"), quoted (ascii "null"))]).Lists
      [(ascii "rootPath", quoted oddSettings.rootPath)] := ⟨[(plainTag, _)], rfl, .refl _⟩
  refine .intro ⟨[(plainTag, _), (plainTag, _)], rfl, List.reverse_perm [_, _]⟩
    ⟨[(plainTag, _)], rfl, .refl _⟩ hstore (by decide)
    ⟨[(plainTag, _), (plainTag, _), (quotedTag, _)], rfl, List.reverse_perm [_, _, _]⟩

theorem load_faithful_oddDocument :
    load [(ascii "c.yaml", oddDocument)] (ascii "c.yaml") = .ok oddSettings ∧
      Holds oddDocument .namespaceName (ascii "~") := by
  have h : List.lookup (ascii "c.yaml") [(ascii "c.yaml", oddDocument)] = some oddDocument := rfl
  have hload := (load_faithful h).1 oddSettings written_oddDocument
  exact ⟨hload, (load_faithful h).2 oddSettings hload .namespaceName (by decide)⟩

end Settings
end VolumeClaim
