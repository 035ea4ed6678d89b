import VolumeClaim.Value.Json

/-!
# Values as indented JSON

The JSON form for people: every item and every field on a line of its own, two blanks deeper
than what holds it.
-/

namespace VolumeClaim.Value

/-- a line break and the indentation of the next line -/
def newline (depth : Nat) : Text := 10 :: List.replicate (2 * depth) (byte ' ')

/-- a comma, unless nothing follows -/
def commaBefore {α : Type} (rest : List α) : Text := if rest.isEmpty then [] else [byte ',']

mutual

/-- a value that starts on a line of the given depth -/
def indented (depth : Nat) : Value → Text
  | .list [] => ascii "[]"
  | .list items => byte '[' :: indentedItems (depth + 1) items ++ newline depth ++ [byte ']']
  | .object [] => [byte '\x7b', byte '\x7d']
  | .object fields =>
    byte '\x7b' :: indentedFields (depth + 1) fields ++ newline depth ++ [byte '\x7d']
  | v => v.json

def indentedItems (depth : Nat) : List Value → Text
  | [] => []
  | v :: items =>
    newline depth ++ v.indented depth ++ commaBefore items ++ indentedItems depth items

def indentedFields (depth : Nat) : List (Text × Value) → Text
  | [] => []
  | (key, v) :: fields =>
    newline depth ++ quoted key ++ ascii ": " ++ v.indented depth ++ commaBefore fields ++
      indentedFields depth fields

end

end VolumeClaim.Value
