/-!
# Texts

A text is a string of bytes.  Names, quantities, paths and messages are all compared, split and
ordered byte by byte, so no encoding is assumed: a text need not be valid UTF-8, and it may hold
zero bytes.  Texts are ordered lexicographically by unsigned bytes, which is the order of `List`.
-/

namespace VolumeClaim

abbrev Text := List UInt8

/-- the byte of an ASCII character -/
def byte (c : Char) : UInt8 := c.toNat.toUInt8

def ascii (s : String) : Text := s.toList.map byte

namespace Text

/-- `A` to `Z` become `a` to `z`; every other byte stays, those outside ASCII too -/
def lowerByte (b : UInt8) : UInt8 := if 65 ≤ b && b ≤ 90 then b + 32 else b

def lower (t : Text) : Text := t.map lowerByte

/-- the part before the first zero byte: what is left of a text that is handed on as a
zero-terminated string -/
def untilZero (t : Text) : Text := t.takeWhile (· ≠ 0)

theorem untilZero_cons_zero (t : Text) : untilZero (0 :: t) = [] := rfl

end Text
end VolumeClaim
