import VolumeClaim.Text

/-!
# YAML nodes

A YAML document as a tree, apart from its layout: null, scalars with their tag and text,
sequences, and mappings whose keys are nodes themselves.  A quoted scalar has the tag `!` and a
plain one the tag `?`.
-/

namespace VolumeClaim

inductive Node where
  | null
  | scalar (tag text : Text)
  | seq (items : List Node)
  | map (entries : List (Node × Node))
  deriving BEq, Inhabited

namespace Node

def quotedTag : Text := ascii "!"

/-- the tag of a plain scalar without a tag of its own -/
def plainTag : Text := ascii "?"

def plain (t : Text) : Node := .scalar plainTag t

def quoted (t : Text) : Node := .scalar quotedTag t

end Node
end VolumeClaim
