import VolumeClaim.Node
import VolumeClaim.Value.Indented

/-!
# The layout of YAML documents

A YAML tree as block text: the entries of a mapping and the items of a sequence on lines of their
own, two blanks deeper than what holds them.  A plain scalar is written as it is if its bytes
cannot be taken for anything else in any place, and in double quotes otherwise.
-/

namespace VolumeClaim.Node
open Text

/-- letters, digits and a few signs that mean nothing in YAML within a word -/
def isWordByte (b : UInt8) : Bool :=
  isDigit b || (97 ≤ lowerByte b && lowerByte b ≤ 122) || b = byte '_' || b = byte '.' ||
    b = byte '/' || b = byte '-'

def isWord (t : Text) : Bool :=
  t.all isWordByte && !t.isEmpty && t.head? ≠ some (byte '-') && t.head? ≠ some (byte '.')

def scalarText (tag t : Text) : Text :=
  if tag ≠ quotedTag ∧ isWord t then t else Value.quoted t

mutual

/-- what follows the colon or the dash of an entry; the lines below it have the given depth -/
def block (depth : Nat) : Node → Text
  | .null => ascii " null"
  | .scalar tag t => byte ' ' :: scalarText tag t
  | .seq [] => ascii " []"
  | .seq items => blockItems depth items
  | .map [] => [byte ' ', byte '\x7b', byte '\x7d']
  | .map entries => blockEntries depth entries

def blockItems (depth : Nat) : List Node → Text
  | [] => []
  | item :: items =>
    Value.newline depth ++ byte '-' :: item.block (depth + 1) ++ blockItems depth items

def blockEntries (depth : Nat) : List (Node × Node) → Text
  | [] => []
  | (.scalar tag key, item) :: entries =>
    Value.newline depth ++ scalarText tag key ++ byte ':' :: item.block (depth + 1) ++
      blockEntries depth entries
  | (key, item) :: entries =>
    Value.newline depth ++ byte '?' :: key.block (depth + 1) ++
      Value.newline depth ++ byte ':' :: item.block (depth + 1) ++ blockEntries depth entries

end

/-- the text of a document, without the blank or line break in front of its first entry -/
def layout (n : Node) : Text := (n.block 0).drop 1

end VolumeClaim.Node
