import VolumeClaim.Node
import VolumeClaim.Number.Literal
import VolumeClaim.Value

/-!
# The value of a YAML node

A quoted scalar is a text.  A plain one is null, a truth value, a number or a text, by what is
written in it.  A mapping becomes an object: its keys must be scalars, and of several entries
with one key the last one counts.
-/

namespace VolumeClaim.Node
open Text

/-- the number that a scalar denotes.  The text is read up to its first zero byte; a text that
starts with one is the number zero. -/
def number? (t : Text) : Option Binary64 :=
  if t = [] then none
  else if untilZero t = [] then some (.zero false)
  else Binary64.ofLiteral? (untilZero t)

def plainValue (t : Text) : Value :=
  if t = ascii "~" ∨ t = ascii "null" then .null
  else if t = ascii "true" then .bool true
  else if t = ascii "false" then .bool false
  else match number? t with
    | some x => .number x
    | none => .text t

def scalarValue (tag t : Text) : Value := if tag = quotedTag then .text t else plainValue t

inductive Fault where
  | keyNotScalar
  deriving DecidableEq

def Fault.message : Fault → Text
  | .keyNotScalar => ascii "config keys must be scalars"

mutual

/-- the value of a node -/
def value : Node → Except Fault Value
  | .null => .ok .null
  | .scalar tag t => .ok (scalarValue tag t)
  | .seq items => (itemValues items).map .list
  | .map entries => (entryValues [] entries).map .object

def itemValues : List Node → Except Fault (List Value)
  | [] => .ok []
  | item :: items => do
    let v ← item.value
    let vs ← itemValues items
    return v :: vs

/-- the entries of a mapping, put into those that came before them -/
def entryValues (fields : List (Text × Value)) :
    List (Node × Node) → Except Fault (List (Text × Value))
  | [] => .ok fields
  | (.scalar _ key, item) :: entries => do
    let v ← item.value
    entryValues (Keyed.insert key v fields) entries
  | _ :: _ => .error .keyNotScalar

end

end VolumeClaim.Node
