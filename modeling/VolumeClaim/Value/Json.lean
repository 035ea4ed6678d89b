import VolumeClaim.Number.Literal
import VolumeClaim.Value

/-!
# Values as JSON text

`Value.json` writes a value as compact JSON and `Value.ofJson?` reads such text.  Bytes outside
ASCII stand for themselves; the quote, the backslash and control bytes are escaped.  Numbers are
written exactly, and one that is not finite has no JSON form and becomes null.  The reader takes
what the writer produces: no blanks, and no other escapes.
-/

namespace VolumeClaim.Value
open Text

/-! ## Writing -/

def hexDigit (d : Nat) : UInt8 := if d < 10 then (48 + d).toUInt8 else (87 + d).toUInt8

def escapeByte (b : UInt8) : Text :=
  if b = byte '"' then [byte '\\', byte '"']
  else if b = byte '\\' then [byte '\\', byte '\\']
  else if b < 32 then ascii "\\u00" ++ [hexDigit (b.toNat / 16), hexDigit (b.toNat % 16)]
  else [b]

def quoted (t : Text) : Text := byte '"' :: (t.flatMap escapeByte ++ [byte '"'])

mutual

/-- a value as compact JSON -/
def json : Value → Text
  | .null => ascii "null"
  | .bool b => if b then ascii "true" else ascii "false"
  | .number x => if x.isFinite then x.toText else ascii "null"
  | .text t => quoted t
  | .list items => byte '[' :: itemsJson items
  | .object fields => byte '\x7b' :: fieldsJson fields

/-- the items of a list and its closing bracket -/
def itemsJson : List Value → Text
  | [] => [byte ']']
  | v :: items => v.json ++ moreItemsJson items

def moreItemsJson : List Value → Text
  | [] => [byte ']']
  | v :: items => byte ',' :: v.json ++ moreItemsJson items

/-- the fields of an object and its closing brace -/
def fieldsJson : List (Text × Value) → Text
  | [] => [byte '\x7d']
  | (key, v) :: fields => quoted key ++ byte ':' :: v.json ++ moreFieldsJson fields

def moreFieldsJson : List (Text × Value) → Text
  | [] => [byte '\x7d']
  | (key, v) :: fields =>
    byte ',' :: quoted key ++ byte ':' :: v.json ++ moreFieldsJson fields

end

/-! ## Reading -/

def hexDigitValue? (b : UInt8) : Option Nat :=
  if isDigit b then some (digitValue b)
  else if 97 ≤ b && b ≤ 102 then some (b.toNat - 87)
  else none

/-- what follows a byte that has to be there -/
def expect (b : UInt8) : Text → Option Text
  | [] => none
  | c :: rest => if c = b then some rest else none

/-- a control byte, after `u`: two zeros and two hexadecimal digits -/
def readControl : Text → Option (UInt8 × Text)
  | z :: y :: h :: l :: rest =>
    if z = byte '0' ∧ y = byte '0' then
      match hexDigitValue? h, hexDigitValue? l with
      | some high, some low => some ((16 * high + low).toUInt8, rest)
      | _, _ => none
    else none
  | _ => none

/-- an escaped byte, after the backslash -/
def readEscape : Text → Option (UInt8 × Text)
  | [] => none
  | e :: rest =>
    if e = byte '"' ∨ e = byte '\\' then some (e, rest)
    else if e = byte 'u' then readControl rest
    else none

/-- a byte of a quoted text, and what follows it -/
def readByte : Text → Option (UInt8 × Text)
  | [] => none
  | b :: rest => if b = byte '\\' then readEscape rest else some (b, rest)

/-- a text up to its closing quote, and what follows it; every step takes at least one byte, so
the length of the text bounds the steps -/
def readQuoted : Nat → Text → Option (Text × Text)
  | 0, _ => none
  | n + 1, t => match expect (byte '"') t with
    | some rest => some ([], rest)
    | none => do
      let (b, rest) ← readByte t
      let (bs, rest) ← readQuoted n rest
      return (b :: bs, rest)

def isNumberByte (b : UInt8) : Bool :=
  isDigit b || b = byte '-' || b = byte '+' || b = byte '.' || b = byte 'e' || b = byte 'E'

def readNumber (t : Text) : Option (Value × Text) :=
  (Binary64.ofLiteral? (t.takeWhile isNumberByte)).map fun x =>
    (.number x, t.dropWhile isNumberByte)

/-- a word that stands for a value, or else a number -/
def readWord (t : Text) : Option (Value × Text) :=
  match (ascii "null").isPrefixOf? t with
  | some rest => some (.null, rest)
  | none => match (ascii "true").isPrefixOf? t with
    | some rest => some (.bool true, rest)
    | none => match (ascii "false").isPrefixOf? t with
      | some rest => some (.bool false, rest)
      | none => readNumber t

mutual

/-- the value at the start of a text, and what follows it; every step takes at least one byte,
so the length of the text bounds the steps -/
def readValue : Nat → Text → Option (Value × Text)
  | 0, _ => none
  | _ + 1, [] => none
  | n + 1, b :: rest =>
    if b = byte '"' then (readQuoted rest.length rest).map fun p => (.text p.1, p.2)
    else if b = byte '[' then (readItems n rest).map fun p => (.list p.1, p.2)
    else if b = byte '\x7b' then (readFieldList n rest).map fun p => (.object p.1, p.2)
    else readWord (b :: rest)

/-- the items after an opening bracket -/
def readItems : Nat → Text → Option (List Value × Text)
  | 0, _ => none
  | n + 1, t => match expect (byte ']') t with
    | some rest => some ([], rest)
    | none => do
      let (v, rest) ← readValue n t
      let (items, rest) ← readMoreItems n rest
      return (v :: items, rest)

def readMoreItems : Nat → Text → Option (List Value × Text)
  | 0, _ => none
  | n + 1, t => match expect (byte ']') t with
    | some rest => some ([], rest)
    | none => do
      let rest ← expect (byte ',') t
      let (v, rest) ← readValue n rest
      let (items, rest) ← readMoreItems n rest
      return (v :: items, rest)

def readFieldList : Nat → Text → Option (List (Text × Value) × Text)
  | 0, _ => none
  | n + 1, t => match expect (byte '\x7d') t with
    | some rest => some ([], rest)
    | none => do
      let rest ← expect (byte '"') t
      let (key, rest) ← readQuoted rest.length rest
      let rest ← expect (byte ':') rest
      let (v, rest) ← readValue n rest
      let (fields, rest) ← readMoreFields n rest
      return ((key, v) :: fields, rest)

def readMoreFields : Nat → Text → Option (List (Text × Value) × Text)
  | 0, _ => none
  | n + 1, t => match expect (byte '\x7d') t with
    | some rest => some ([], rest)
    | none => do
      let rest ← expect (byte ',') t
      let rest ← expect (byte '"') rest
      let (key, rest) ← readQuoted rest.length rest
      let rest ← expect (byte ':') rest
      let (v, rest) ← readValue n rest
      let (fields, rest) ← readMoreFields n rest
      return ((key, v) :: fields, rest)

end

def ofJson? (t : Text) : Option Value :=
  match readValue (2 * t.length + 2) t with
  | some (v, []) => some v
  | _ => none

end VolumeClaim.Value
