import VolumeClaim.Number
import VolumeClaim.TextMap

/-!
# Values

The values that documents are made of: null, truth values, numbers, texts, lists, and objects,
which are finite maps from texts to values with their keys in ascending order.  Claims are
written as values, and configuration files are read as values.
-/

namespace VolumeClaim

inductive Value where
  | null
  | bool (b : Bool)
  | number (x : Binary64)
  | text (t : Text)
  | list (items : List Value)
  | object (fields : List (Text × Value))
  deriving BEq, Inhabited

namespace Value

/-! ## Writing a field

Each of these functions writes a field of an object; what is not there leaves no field. -/

/-- a text, left out if it is empty -/
def textField (key : String) (t : Text) : List (Text × Value) :=
  if t = [] then [] else [(ascii key, .text t)]

def textsField (key : String) (ts : List Text) : List (Text × Value) :=
  if ts = [] then [] else [(ascii key, .list (ts.map .text))]

def mapField (key : String) (m : TextMap) : List (Text × Value) :=
  if m.isEmpty then []
  else [(ascii key, .object (m.entries.map fun e => (e.1, .text e.2)))]

/-- a part, left out if it is not there -/
def partField (key : String) (part : Option Value) : List (Text × Value) :=
  (part.map fun v => (ascii key, v)).toList

/-! ## Reading a field

A field that is null counts as not given, so each of these functions takes what the field held
before and returns it for null.  A value of another shape is refused. -/

def textOr (old : Text) : Value → Option Text
  | .null => some old
  | .text t => some t
  | _ => none

/-- a text whose presence counts -/
def optionalTextOr (old : Option Text) : Value → Option (Option Text)
  | .null => some old
  | .text t => some (some t)
  | _ => none

/-- a part with fields of its own -/
def partOr {α : Type} (read : Value → Option α) (old : Option α) : Value → Option (Option α)
  | .null => some old
  | v => (read v).map some

def texts? : List Value → Option (List Text)
  | [] => some []
  | .text t :: items => (texts? items).map (t :: ·)
  | _ :: _ => none

theorem texts?_map (ts : List Text) : texts? (ts.map .text) = some ts := by
  induction ts with
  | nil => rfl
  | cons t ts ih => simp [texts?, ih]

def textsOr (old : List Text) : Value → Option (List Text)
  | .null => some old
  | .list items => texts? items
  | _ => none

/-- the entries of an object whose values are all texts -/
def textFields? : List (Text × Value) → Option (List (Text × Text))
  | [] => some []
  | (key, .text t) :: fields => (textFields? fields).map ((key, t) :: ·)
  | _ :: _ => none

theorem textFields?_map (entries : List (Text × Text)) :
    textFields? (entries.map fun e => (e.1, .text e.2)) = some entries := by
  induction entries with
  | nil => rfl
  | cons e entries ih => simp [textFields?, ih]

def mapOr (old : TextMap) : Value → Option TextMap
  | .null => some old
  | .object fields => (textFields? fields).map .ofList
  | _ => none

theorem mapOr_object (old m : TextMap) :
    mapOr old (.object (m.entries.map fun e => (e.1, .text e.2))) = some m := by
  simp [mapOr, textFields?_map, TextMap.ofList_entries]

mutual

/-- no number in the value is infinite or not a number -/
def allFinite : Value → Bool
  | .number x => x.isFinite
  | .list items => allFiniteItems items
  | .object fields => allFiniteFields fields
  | _ => true

def allFiniteItems : List Value → Bool
  | [] => true
  | v :: items => v.allFinite && allFiniteItems items

def allFiniteFields : List (Text × Value) → Bool
  | [] => true
  | (_, v) :: fields => v.allFinite && allFiniteFields fields

end

/-- reads the fields of an object one by one into a record -/
def readFields {α : Type} (step : α → Text → Value → Option α) (start : α) : Value → Option α
  | .object fields => fields.foldlM (fun record field => step record field.1 field.2) start
  | _ => none

end Value
end VolumeClaim
