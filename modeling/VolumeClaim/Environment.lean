import VolumeClaim.Text

/-!
# Environment variables

An environment gives texts to names.  A variable that is set to nothing counts as not set.
-/

namespace VolumeClaim

abbrev Environment := List (Text × Text)

/-- the value of a variable, if it is set to something -/
def Environment.value? (env : Environment) (name : Text) : Option Text :=
  match env.lookup name with
  | none | some [] => none
  | some value => some value

end VolumeClaim
