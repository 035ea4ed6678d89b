import VolumeClaim.Claim.Document
import VolumeClaim.FileTree

/-!
# Faults of stores

A store refuses a claim whose name is taken or cannot be part of a path, and it may find a file
that holds no claim.  A store on disk may also find that there is no place for a claim's file.
-/

namespace VolumeClaim.Store

/-- why a store refuses; `blocked` has the directory that could not be made, `notOpened` the path
that could not be written to, and with `notAFile` a directory stands where a claim's file would
be -/
inductive Fault where
  | alreadyExists (name : Text)
  | badPath (fault : Path.Fault)
  | badDocument (fault : Claim.Fault)
  | blocked (directory : Text) (obstacle : FileTree.Obstacle)
  | notOpened (path : Text)
  | notAFile
  deriving DecidableEq

def Fault.message : Fault → Text
  | .alreadyExists name =>
    (ascii "persistentvolumeclaims \"" ++ name ++ ascii "\" already exists").untilZero
  | .badPath fault => fault.message
  | .badDocument fault => fault.message
  | .blocked directory obstacle =>
    (ascii "filesystem error: cannot create directories: " ++ obstacle.text ++ ascii " [" ++
      directory ++ ascii "]").untilZero
  | .notOpened path => (ascii "failed to open " ++ path).untilZero
  | .notAFile => ascii "basic_filebuf::underflow error reading the file: Is a directory"

end VolumeClaim.Store
