import VolumeClaim.Store.Fault

/-!
# The store on disk

Each claim is a JSON document in a file of its own, below a root directory.  A file is written
once and never changed: a path that names something already, be it a directory, is taken.
Directories are made as they are needed, and stay even if there is no place for the file then.
-/

namespace VolumeClaim

/-- a root directory in a file tree -/
structure DiskStore where
  root : Text
  tree : FileTree

namespace DiskStore

def path (d : DiskStore) (namespaceName name : Text) : Except Store.Fault Text :=
  (Path.claimPath d.root namespaceName name).mapError .badPath

def directory (d : DiskStore) (namespaceName : Text) : Text := Path.join d.root namespaceName

/-- writes a file into the directory for a namespace, under a temporary name until it is whole.
Making that directory may bring about that the name is taken.  With a zero byte in the root, the
path of the temporary file is cut off and names the directory itself, which cannot be written to
and is taken away again. -/
def write (d : DiskStore) (namespaceName name contents : Text) :
    Except Store.Fault Unit × DiskStore :=
  let directory := d.directory namespaceName
  match d.tree.makeDirectories directory with
  | (.error obstacle, tree) => (.error (.blocked directory obstacle), { d with tree := tree })
  | (.ok l, tree) =>
    if 0 ∈ d.root then
      (.error (.notOpened directory), { d with tree := tree.removeDirectory directory })
    else
      let (published, tree) := tree.publish l (Path.fileName name) tree.unusedStamp contents
      (if published then .ok () else .error (.alreadyExists name), { d with tree := tree })

def create (d : DiskStore) (namespaceName : Text) (c : Claim) (checkOnly : Bool) :
    Except Store.Fault Claim × DiskStore :=
  match d.path namespaceName c.name with
  | .error fault => (.error fault, d)
  | .ok path =>
    if (d.tree.find? path).isSome then (.error (.alreadyExists c.name), d)
    else
      let stored := c.inNamespace namespaceName
      if checkOnly then (.ok stored, d)
      else match d.write namespaceName c.name stored.json with
        | (.error fault, d) => (.error fault, d)
        | (.ok (), d) => (.ok stored, d)

def get (d : DiskStore) (namespaceName name : Text) : Except Store.Fault (Option Claim) := do
  let path ← d.path namespaceName name
  match d.tree.find? path with
  | none => .ok none
  | some l => match d.tree.contents? l with
    | none => .error .notAFile
    | some contents => match Claim.ofJson contents with
      | .ok c => .ok (some c)
      | .error fault => .error (.badDocument fault)

end DiskStore
end VolumeClaim
