import VolumeClaim.Claim.Document
import VolumeClaim.Node

/-!
# Values as YAML nodes

`Value.yaml` is the YAML tree of a value.  The fields of an object are put in ascending order of
their keys, which are plain scalars.  A text is a plain scalar unless a YAML reader would take it
for something else: null, a truth value or a number; then it is quoted.
-/

namespace VolumeClaim
open Text

namespace Node

/-- the words for truth values; each is also read in capitals or with a capital initial -/
def truthWords : List Text :=
  [ascii "y", ascii "n", ascii "yes", ascii "no", ascii "true", ascii "false", ascii "on",
    ascii "off"]

def upperByte (b : UInt8) : UInt8 := if 97 ≤ b && b ≤ 122 then b - 32 else b

def capitalized : Text → Text
  | [] => []
  | b :: rest => upperByte b :: rest

def readsAsTruth (t : Text) : Bool :=
  truthWords.any fun word => t = word || t = word.map upperByte || t = capitalized word

/-- whether a YAML reader takes a text for null: nothing, a tilde, or `null` in either case -/
def readsAsNull (t : Text) : Bool := t.isEmpty || t = ascii "~" || lower t = ascii "null"

def infinityWords : List Text := [ascii ".inf", ascii ".Inf", ascii ".INF"]

def nanWords : List Text := [ascii ".nan", ascii ".NaN", ascii ".NAN"]

/-- whether a YAML reader takes a text for a number: decimal notation, or a word for infinity,
both with an optional sign, or a word for no number, without one -/
def readsAsNumber (t : Text) : Bool :=
  let unsigned := (readSign t).2
  (Scientific.ofText? unsigned).isSome || infinityWords.contains unsigned || nanWords.contains t

/-- whether a plain scalar with this text would not be read as this text -/
def needsQuotes (t : Text) : Bool := readsAsNull t || readsAsTruth t || readsAsNumber t

def ofText (t : Text) : Node := if needsQuotes t then quoted t else plain t

/-- an entry of a mapping; its key is never quoted -/
def entry (e : Text × Node) : Node × Node := (.plain e.1, e.2)

end Node

mutual

def Value.yaml : Value → Node
  | .null => .null
  | .bool b => .plain (if b then ascii "true" else ascii "false")
  | .number x => .plain x.toText
  | .text t => .ofText t
  | .list items => .seq (Value.yamlItems items)
  | .object fields => .map ((Keyed.ofList (Value.yamlFields fields)).map Node.entry)

def Value.yamlItems : List Value → List Node
  | [] => []
  | v :: items => v.yaml :: Value.yamlItems items

def Value.yamlFields : List (Text × Value) → List (Text × Node)
  | [] => []
  | (key, v) :: fields => (key, v.yaml) :: Value.yamlFields fields

end

def Claim.yaml (c : Claim) : Node := c.document.yaml

end VolumeClaim
