import VolumeClaim.Node.Writing

/-!
# Output

What a command prints: a line of text, a claim as JSON, or a claim as YAML.  `print` chooses by
the format that the user asked for.
-/

namespace VolumeClaim

/-- the formats in which a claim is printed; the standard one names the claim and the operation -/
inductive OutputFormat where
  | standard
  | name
  | json
  | yaml
  deriving DecidableEq

/-- the format of a word, in either case; no word is the standard format -/
def OutputFormat.ofText? (t : Text) : Option OutputFormat :=
  let word := t.lower
  if word = [] then some .standard
  else if word = ascii "name" then some .name
  else if word = ascii "json" then some .json
  else if word = ascii "yaml" then some .yaml
  else none

/-- what is printed; a JSON or YAML document ends with a line break -/
inductive Output where
  | text (t : Text)
  | json (claim : Claim)
  | yaml (document : Node)

namespace Output

def nothing : Output := .text []

/-- the kind and the name of a claim, and an operation unless it is empty -/
def nameLine (c : Claim) (operation : Text) : Text :=
  c.kind.lower ++ byte '/' :: c.name ++
    (if operation = [] then [] else byte ' ' :: operation) ++ [10]

/-- a claim in a format; only the standard format tells the operation -/
def print (format : OutputFormat) (operation : Text) (c : Claim) : Output :=
  match format with
  | .standard => .text (nameLine c operation)
  | .name => .text (nameLine c [])
  | .json => .json c
  | .yaml => .yaml c.yaml

end Output
end VolumeClaim
