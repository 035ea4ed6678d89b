import VolumeClaim.Keyed

/-!
# Maps from texts to texts

The annotations of a claim, and its amounts of each resource, are finite maps from texts to
texts.  A map is determined by what it holds: its entries stand in ascending order of their
keys, so two maps with the same entries are equal.
-/

namespace VolumeClaim

/-- a finite map from texts to texts -/
structure TextMap where
  entries : List (Text × Text)
  ascending : Keyed.Ascending entries
  deriving DecidableEq

namespace TextMap

def empty : TextMap := ⟨[], Keyed.ascending_nil⟩

def isEmpty (m : TextMap) : Bool := m.entries.isEmpty

def get? (m : TextMap) (key : Text) : Option Text := m.entries.lookup key

/-- puts a text under a key, in place of an earlier one -/
def insert (m : TextMap) (key t : Text) : TextMap :=
  ⟨Keyed.insert key t m.entries, Keyed.ascending_insert key t m.ascending⟩

def erase (m : TextMap) (key : Text) : TextMap :=
  ⟨Keyed.erase key m.entries, Keyed.ascending_erase key m.ascending⟩

/-- the map of a list of entries; of several with one key the last one counts -/
def ofList (entries : List (Text × Text)) : TextMap :=
  ⟨Keyed.ofList entries, Keyed.ascending_ofList entries⟩

theorem ext {m n : TextMap} (h : m.entries = n.entries) : m = n := by
  cases m; cases n; cases h; rfl

theorem eq_empty {m : TextMap} (h : m.isEmpty = true) : m = .empty := ext (List.isEmpty_iff.mp h)

/-- a map is the map of its own entries -/
theorem ofList_entries (m : TextMap) : ofList m.entries = m :=
  ext (Keyed.ofList_of_ascending m.ascending)

end TextMap
end VolumeClaim
