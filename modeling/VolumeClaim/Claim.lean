import VolumeClaim.Draft
import VolumeClaim.Quantity.Canonical
import VolumeClaim.TextMap

/-!
# Claims

A claim is a document that asks for storage.  Its texts may be empty, which means that they are
not given; its parts `metadata`, `spec` and `resources` are there or not, which is not the same
as being empty; and the presence of the storage class counts too.  `Draft.claim` writes a draft
as a claim, with every amount in its canonical text.
-/

namespace VolumeClaim

/-- how a claim is named, and notes on it -/
structure Metadata where
  name : Text
  namespaceName : Text
  annotations : TextMap
  deriving DecidableEq

/-- amounts by resource, in canonical text -/
structure Resources where
  limits : TextMap
  requests : TextMap
  deriving DecidableEq

structure ClaimSpec where
  accessModes : List Text
  resources : Option Resources
  storageClass : Option Text
  deriving DecidableEq

structure Claim where
  apiVersion : Text
  kind : Text
  metadata : Option Metadata
  spec : Option ClaimSpec
  deriving DecidableEq

def Metadata.empty : Metadata := ⟨[], [], .empty⟩

def Resources.empty : Resources := ⟨.empty, .empty⟩

def ClaimSpec.empty : ClaimSpec := ⟨[], none, none⟩

namespace Claim

def empty : Claim := ⟨[], [], none, none⟩

def metadataOrEmpty (c : Claim) : Metadata := c.metadata.getD .empty

def name (c : Claim) : Text := c.metadataOrEmpty.name

def annotations (c : Claim) : TextMap := c.metadataOrEmpty.annotations

/-- the claim in a namespace; it has metadata from then on -/
def inNamespace (c : Claim) (namespaceName : Text) : Claim :=
  { c with metadata := some { c.metadataOrEmpty with namespaceName := namespaceName } }

def withAnnotations (c : Claim) (annotations : TextMap) : Claim :=
  { c with metadata := some { c.metadataOrEmpty with annotations := annotations } }

end Claim

def amountTexts (amounts : List (Text × Quantity)) : TextMap :=
  .ofList (amounts.map fun e => (e.1, e.2.toText))

def Draft.claim (d : Draft) : Claim where
  apiVersion := d.apiVersion
  kind := d.kind
  metadata := some { Metadata.empty with name := d.name, namespaceName := d.namespaceName }
  spec := some {
    accessModes := d.accessModes
    resources := some ⟨amountTexts d.limits, amountTexts d.requests⟩
    storageClass := d.storageClass }

end VolumeClaim
