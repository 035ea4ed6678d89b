import VolumeClaim.AccessMode
import VolumeClaim.Text.Split

/-!
# Requests

A request is what a user asks for, as it was typed: nothing in it is parsed, and an empty text
means that nothing was given.  `Request.check` looks at its shape: the name and the amount of
storage are there, and every access mode is known.  Amounts are not read here.
-/

namespace VolumeClaim

/-- what a user asks for; the access modes are separated by commas -/
structure Request where
  name : Text
  namespaceName : Text
  storageRequest : Text
  storageLimit : Text
  accessModes : Text
  storageClass : Text
  deriving DecidableEq

namespace Request
open Text

def empty : Request := ⟨[], [], [], [], [], []⟩

/-- the access modes one by one, known or not; none if none were given -/
def modeTokens (r : Request) : List Text :=
  if r.accessModes = [] then [] else split (byte ',') r.accessModes

inductive Flaw where
  | noName
  | noStorageRequest
  | unknownAccessMode (token : Text)
  deriving DecidableEq

def Flaw.message : Flaw → Text
  | .noName => ascii "name must be specified"
  | .noStorageRequest => ascii "storage-request must be specified"
  | .unknownAccessMode token =>
    untilZero (ascii "provided access mode " ++ token ++ ascii " is invalid")

/-- the first token that names no access mode -/
def unknownMode? (r : Request) : Option Text :=
  r.modeTokens.find? fun token => (AccessMode.ofName? token).isNone

/-- the first flaw, in the order name, storage request, access modes -/
def check (r : Request) : Except Flaw Unit :=
  if r.name = [] then .error .noName
  else if r.storageRequest = [] then .error .noStorageRequest
  else match r.unknownMode? with
    | some token => .error (.unknownAccessMode token)
    | none => .ok ()

end Request
end VolumeClaim
