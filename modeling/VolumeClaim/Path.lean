import VolumeClaim.Text

/-!
# Paths of claims

A claim is kept under a root directory, in a directory for its namespace, in a file named for
it.  Namespace and name become path components, so texts that would lead elsewhere are refused
before a path is made: `claimPath` stays below the root, and different claims have different
paths.
-/

namespace VolumeClaim.Path

def separator : UInt8 := byte '/'

/-- a path below a directory; one separator is put between them unless the directory is empty
or ends with one -/
def join (directory component : Text) : Text :=
  if directory = [] ∨ directory.getLast? = some separator then directory ++ component
  else directory ++ separator :: component

inductive Role where
  | namespaceName
  | claimName
  deriving DecidableEq

def Role.name : Role → Text
  | .namespaceName => ascii "namespace"
  | .claimName => ascii "claim name"

inductive Flaw where
  | empty
  | invalidByte
  | relative
  deriving DecidableEq

def Flaw.text : Flaw → Text
  | .empty => ascii " must not be empty"
  | .invalidByte => ascii " contains invalid character"
  | .relative => ascii " must not be a relative path component"

structure Fault where
  role : Role
  flaw : Flaw
  deriving DecidableEq

def Fault.message (f : Fault) : Text := f.role.name ++ f.flaw.text

def isForbidden (b : UInt8) : Bool := b = byte '/' || b = byte '\\' || b = 0

/-- the first flaw of a component -/
def flaw? (t : Text) : Option Flaw :=
  if t = [] then some .empty
  else if t.any isForbidden then some .invalidByte
  else if t = ascii "." ∨ t = ascii ".." then some .relative
  else none

def checkComponent (role : Role) (t : Text) : Except Fault Unit :=
  match flaw? t with
  | some flaw => .error ⟨role, flaw⟩
  | none => .ok ()

def fileName (name : Text) : Text := name ++ ascii ".json"

/-- the name of a file that is written before it gets its own name -/
def temporaryName (name stamp : Text) : Text := name ++ byte '.' :: (stamp ++ ascii ".tmp")

/-- the path of a claim; the namespace is checked first -/
def claimPath (root namespaceName name : Text) : Except Fault Text := do
  checkComponent .namespaceName namespaceName
  checkComponent .claimName name
  return join (join root namespaceName) (fileName name)

end VolumeClaim.Path
