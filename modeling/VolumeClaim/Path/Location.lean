import VolumeClaim.Path
import VolumeClaim.Text.Split

/-!
# Locations

A location is a place where a file or a directory can be.  Names on the way to it are counted
from the top or from a directory at or above the working directory: where the working directory
itself lies is not known, so the two kinds of place never meet.  A path is followed component by
component, with one location after another on the way.
-/

namespace VolumeClaim

/-- where the names of a location start: at the top, or a number of levels above the working
directory -/
inductive Anchor where
  | top
  | above (levels : Nat)
  deriving DecidableEq

/-- the names on the way from an anchor to a place, the last one first -/
structure Location where
  anchor : Anchor
  names : List Text
  deriving DecidableEq

namespace Location

def top : Location := ⟨.top, []⟩

def workingDirectory : Location := ⟨.above 0, []⟩

def child (l : Location) (name : Text) : Location := ⟨l.anchor, name :: l.names⟩

/-- the directory around a place; the top is its own -/
def parent : Location → Location
  | ⟨anchor, _ :: names⟩ => ⟨anchor, names⟩
  | ⟨.above levels, []⟩ => ⟨.above (levels + 1), []⟩
  | ⟨.top, []⟩ => top

theorem parent_child (l : Location) (name : Text) : (l.child name).parent = l := rfl

theorem child_inj {l m : Location} {s t : Text} : l.child s = m.child t ↔ l = m ∧ s = t := by
  cases l; cases m; simp [child, and_left_comm, and_comm]

/-! ## Following a path -/

def start (path : Text) : Location :=
  if path.head? = some Path.separator then top else workingDirectory

/-- where one more component leads: nowhere new if it is empty or a dot, and out of the directory
if it is two dots -/
def follow (l : Location) (component : Text) : Location :=
  if component = [] ∨ component = ascii "." then l
  else if component = ascii ".." then l.parent
  else l.child component

theorem follow_nil (l : Location) : l.follow [] = l := rfl

theorem follow_of_flaw?_eq_none {t : Text} (h : Path.flaw? t = none) (l : Location) :
    l.follow t = l.child t := by
  simp only [Path.flaw?] at h
  grind [follow]

/-! ## Writing a location -/

/-- the shortest path to a place -/
def toPath : Location → Text
  | ⟨.top, names⟩ => Path.separator :: Text.join Path.separator names.reverse
  | ⟨.above levels, names⟩ =>
    Text.join Path.separator (List.replicate levels (ascii "..") ++ names.reverse)

def isBelowWorkingDirectory (l : Location) : Bool := l.anchor = .above 0 && l.names ≠ []

end Location
end VolumeClaim
