import VolumeClaim.Claim
import VolumeClaim.Value.Json

/-!
# Claims as values and as text

`Claim.document` is a claim as a value: a field that is empty is left out, a part that is there
is written even if it is empty, and so is a storage class that is there.  `Claim.ofDocument?`
reads such a value.  It knows every field by its name in camel case and in snake case, ignores
null, and refuses unknown fields and values of another shape.  `Claim.json` and `Claim.ofJson`
do the same with text.
-/

namespace VolumeClaim
open Value (textField textsField mapField partField)

/-! ## Writing -/

def Metadata.document (m : Metadata) : Value :=
  .object (mapField "annotations" m.annotations ++ textField "name" m.name ++
    textField "namespace" m.namespaceName)

def Resources.document (r : Resources) : Value :=
  .object (mapField "limits" r.limits ++ mapField "requests" r.requests)

def ClaimSpec.document (s : ClaimSpec) : Value :=
  .object (textsField "accessModes" s.accessModes ++
    partField "resources" (s.resources.map Resources.document) ++
    partField "storageClassName" (s.storageClass.map .text))

/-- the claim as a value -/
def Claim.document (c : Claim) : Value :=
  .object (textField "apiVersion" c.apiVersion ++ textField "kind" c.kind ++
    partField "metadata" (c.metadata.map Metadata.document) ++
    partField "spec" (c.spec.map ClaimSpec.document))

/-! ## Reading -/

def Metadata.readField (m : Metadata) (key : Text) (v : Value) : Option Metadata :=
  if key = ascii "name" then (v.textOr m.name).map fun t => { m with name := t }
  else if key = ascii "namespace" then
    (v.textOr m.namespaceName).map fun t => { m with namespaceName := t }
  else if key = ascii "annotations" then
    (v.mapOr m.annotations).map fun a => { m with annotations := a }
  else none

def Metadata.ofDocument? : Value → Option Metadata := Value.readFields Metadata.readField .empty

def Resources.readField (r : Resources) (key : Text) (v : Value) : Option Resources :=
  if key = ascii "limits" then (v.mapOr r.limits).map fun m => { r with limits := m }
  else if key = ascii "requests" then
    (v.mapOr r.requests).map fun m => { r with requests := m }
  else none

def Resources.ofDocument? : Value → Option Resources :=
  Value.readFields Resources.readField .empty

def ClaimSpec.readField (s : ClaimSpec) (key : Text) (v : Value) : Option ClaimSpec :=
  if key = ascii "accessModes" ∨ key = ascii "access_modes" then
    (v.textsOr s.accessModes).map fun ts => { s with accessModes := ts }
  else if key = ascii "resources" then
    (v.partOr Resources.ofDocument? s.resources).map fun r => { s with resources := r }
  else if key = ascii "storageClassName" ∨ key = ascii "storage_class_name" then
    (v.optionalTextOr s.storageClass).map fun t => { s with storageClass := t }
  else none

def ClaimSpec.ofDocument? : Value → Option ClaimSpec :=
  Value.readFields ClaimSpec.readField .empty

namespace Claim

def readField (c : Claim) (key : Text) (v : Value) : Option Claim :=
  if key = ascii "apiVersion" ∨ key = ascii "api_version" then
    (v.textOr c.apiVersion).map fun t => { c with apiVersion := t }
  else if key = ascii "kind" then (v.textOr c.kind).map fun t => { c with kind := t }
  else if key = ascii "metadata" then
    (v.partOr Metadata.ofDocument? c.metadata).map fun m => { c with metadata := m }
  else if key = ascii "spec" then
    (v.partOr ClaimSpec.ofDocument? c.spec).map fun s => { c with spec := s }
  else none

/-- the claim that a value describes -/
def ofDocument? : Value → Option Claim := Value.readFields readField .empty

inductive Fault where
  | notAClaim
  deriving DecidableEq

def Fault.message : Fault → Text
  | .notAClaim => ascii "Invalid claim document: <detail>"

def ofDocument (v : Value) : Except Fault Claim :=
  match ofDocument? v with
  | some c => .ok c
  | none => .error .notAClaim

/-- the claim as compact JSON -/
def json (c : Claim) : Text := c.document.json

def ofJson? (t : Text) : Option Claim := (Value.ofJson? t).bind ofDocument?

def ofJson (t : Text) : Except Fault Claim :=
  match ofJson? t with
  | some c => .ok c
  | none => .error .notAClaim

end Claim
end VolumeClaim
