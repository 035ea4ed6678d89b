import VolumeClaim.Quantity.Literal
import VolumeClaim.Quantity.Order
import VolumeClaim.Request

/-!
# Drafts

A draft is a request whose amounts have been read.  `Request.draft` makes one: both amounts must
be quantities, and a limit must be greater than the request.  The access modes are carried as
they were given, so a request that was not checked keeps its unknown modes.
-/

namespace VolumeClaim

/-- a claim with exact amounts: the amounts by resource, and a storage class only if one was
given -/
structure Draft where
  apiVersion : Text
  kind : Text
  name : Text
  namespaceName : Text
  requests : List (Text × Quantity)
  limits : List (Text × Quantity)
  accessModes : List Text
  storageClass : Option Text
  deriving DecidableEq

namespace Draft

def currentVersion : Text := ascii "v1"

def claimKind : Text := ascii "PersistentVolumeClaim"

/-- the one resource that a claim asks for -/
def storage : Text := ascii "storage"

inductive Fault where
  | badLiteral (e : Quantity.LiteralError)
  | limitTooSmall
  deriving DecidableEq

def Fault.message : Fault → Text
  | .badLiteral e => e.message
  | .limitTooSmall => ascii "resource limit is the same/less than the resource request"

end Draft

namespace Request

def amount (literal : Text) : Except Draft.Fault Quantity :=
  (Quantity.parse literal).mapError .badLiteral

/-- the limit, which must be greater than the request; nothing if none was given -/
def limit (r : Request) (request : Quantity) : Except Draft.Fault (Option Quantity) :=
  if r.storageLimit = [] then .ok none
  else do
    let limit ← amount r.storageLimit
    if limit.le request then .error .limitTooSmall else .ok (some limit)

/-- the draft of a request, with its namespace if that is enforced -/
def draft (r : Request) (enforceNamespace : Bool) : Except Draft.Fault Draft := do
  let request ← amount r.storageRequest
  let limit ← r.limit request
  return {
    apiVersion := Draft.currentVersion
    kind := Draft.claimKind
    name := r.name
    namespaceName := if enforceNamespace then r.namespaceName else []
    requests := [(Draft.storage, request)]
    limits := (limit.map fun q => (Draft.storage, q)).toList
    accessModes := r.modeTokens
    storageClass := if r.storageClass = [] then none else some r.storageClass }

end Request
end VolumeClaim
