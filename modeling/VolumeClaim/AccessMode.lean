import VolumeClaim.Text

/-!
# Access modes

The ways in which nodes may mount a volume.  A mode is written by its exact name; case counts.
-/

namespace VolumeClaim

inductive AccessMode where
  | readOnlyMany
  | readWriteMany
  | readWriteOnce
  deriving DecidableEq

namespace AccessMode

def all : List AccessMode := [.readOnlyMany, .readWriteMany, .readWriteOnce]

def name : AccessMode → Text
  | .readOnlyMany => ascii "ReadOnlyMany"
  | .readWriteMany => ascii "ReadWriteMany"
  | .readWriteOnce => ascii "ReadWriteOnce"

def ofName? (t : Text) : Option AccessMode := all.find? fun mode => mode.name = t

theorem mem_all (mode : AccessMode) : mode ∈ all := by cases mode <;> decide

theorem ofName?_name (mode : AccessMode) : ofName? mode.name = some mode := by
  cases mode <;> decide

theorem ofName?_eq_some_iff {t : Text} {mode : AccessMode} :
    ofName? t = some mode ↔ mode.name = t := by
  constructor
  · intro h
    simpa using List.find?_some h
  · rintro rfl
    exact ofName?_name mode

end AccessMode
end VolumeClaim
