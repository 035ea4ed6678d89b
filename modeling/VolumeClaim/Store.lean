import VolumeClaim.Store.Disk
import VolumeClaim.Store.Memory

/-!
# Stores

A store is kept in memory or on disk.  Both answer the same requests: to create a claim in a
namespace, for good or only as a check, and to look one up.
-/

namespace VolumeClaim

inductive Store where
  | memory (m : MemoryStore)
  | disk (d : DiskStore)

namespace Store

/-- submits a claim to a namespace: the claim as stored or the fault, and the store afterwards.
A check leaves the store as it is. -/
def create (s : Store) (namespaceName : Text) (c : Claim) (checkOnly : Bool) :
    Except Fault Claim × Store :=
  match s with
  | .memory m =>
    let (result, m) := m.create namespaceName c checkOnly
    (result, .memory m)
  | .disk d =>
    let (result, d) := d.create namespaceName c checkOnly
    (result, .disk d)

def get (s : Store) (namespaceName name : Text) : Except Fault (Option Claim) :=
  match s with
  | .memory m => .ok (m.get? namespaceName name)
  | .disk d => d.get namespaceName name

end Store
end VolumeClaim
