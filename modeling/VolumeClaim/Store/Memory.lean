import VolumeClaim.Store.Fault

/-!
# The store in memory

Claims are kept by one key text, the namespace and the name with a slash between them.
-/

namespace VolumeClaim

/-- claims by key, in the order in which they came -/
structure MemoryStore where
  claims : List (Text × Claim)

namespace MemoryStore

def empty : MemoryStore := ⟨[]⟩

def size (m : MemoryStore) : Nat := m.claims.length

def key (namespaceName name : Text) : Text := namespaceName ++ byte '/' :: name

def get? (m : MemoryStore) (namespaceName name : Text) : Option Claim :=
  m.claims.lookup (key namespaceName name)

def create (m : MemoryStore) (namespaceName : Text) (c : Claim) (checkOnly : Bool) :
    Except Store.Fault Claim × MemoryStore :=
  match m.get? namespaceName c.name with
  | some _ => (.error (.alreadyExists c.name), m)
  | none =>
    let stored := c.inNamespace namespaceName
    (.ok stored,
      if checkOnly then m else ⟨m.claims ++ [(key namespaceName c.name, stored)]⟩)

end MemoryStore
end VolumeClaim
