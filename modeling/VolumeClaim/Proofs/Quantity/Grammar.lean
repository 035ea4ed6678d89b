import VolumeClaim.Quantity
import VolumeClaim.Proofs.Text.Sign
import VolumeClaim.Text.Digits.Place

/-!
# The grammar of quantities

    quantity ::= sign? number suffix
    sign     ::= "+" | "-"
    number   ::= digits | digits "." digits? | "." digits
    suffix   ::= "Ki" | "Mi" | "Gi" | "Ti" | "Pi" | "Ei"
               | "n" | "u" | "m" | "" | "k" | "K" | "M" | "G" | "T" | "P" | "E"
               | ("e" | "E") sign? digits

A `Literal` is a derivation in this grammar: `Literal.text` is the word that is derived,
`Literal.value` the rational number that it denotes and `Literal.family` the units that it is
written in.  The exponent of a literal may have any size; `Literal.Bounded` is the bound under
which literals are read.
-/

namespace VolumeClaim.Grammar
open Text

/-! ## Numbers -/

/-- the value behind a point -/
def Digits.fraction (d : Digits) : ℚ := d.value / 10 ^ d.text.length

inductive Number where
  | whole (w : Digits)
  | pointed (w : Digits) (f : Option Digits)
  | fraction (f : Digits)

def Number.text : Number → Text
  | .whole w => w.text
  | .pointed w none => w.text ++ [byte '.']
  | .pointed w (some f) => w.text ++ byte '.' :: f.text
  | .fraction f => byte '.' :: f.text

def Number.value : Number → ℚ
  | .whole w => w.value
  | .pointed w none => w.value
  | .pointed w (some f) => w.value + f.fraction
  | .fraction f => f.fraction

/-! ## Suffixes -/

inductive BinaryUnit where
  | kibi
  | mebi
  | gibi
  | tebi
  | pebi
  | exbi
  deriving DecidableEq

def BinaryUnit.text : BinaryUnit → Text
  | .kibi => ascii "Ki"
  | .mebi => ascii "Mi"
  | .gibi => ascii "Gi"
  | .tebi => ascii "Ti"
  | .pebi => ascii "Pi"
  | .exbi => ascii "Ei"

def BinaryUnit.power : BinaryUnit → ℕ
  | .kibi => 1
  | .mebi => 2
  | .gibi => 3
  | .tebi => 4
  | .pebi => 5
  | .exbi => 6

/-- `kiloUpper` is the other spelling of `kilo`, `one` the missing suffix -/
inductive DecimalUnit where
  | nano
  | micro
  | milli
  | one
  | kilo
  | kiloUpper
  | mega
  | giga
  | tera
  | peta
  | exa
  deriving DecidableEq

def DecimalUnit.text : DecimalUnit → Text
  | .nano => ascii "n"
  | .micro => ascii "u"
  | .milli => ascii "m"
  | .one => []
  | .kilo => ascii "k"
  | .kiloUpper => ascii "K"
  | .mega => ascii "M"
  | .giga => ascii "G"
  | .tera => ascii "T"
  | .peta => ascii "P"
  | .exa => ascii "E"

def DecimalUnit.power : DecimalUnit → ℤ
  | .nano => -9
  | .micro => -6
  | .milli => -3
  | .one => 0
  | .kilo => 3
  | .kiloUpper => 3
  | .mega => 6
  | .giga => 9
  | .tera => 12
  | .peta => 15
  | .exa => 18

inductive Mark where
  | lower
  | upper
  deriving DecidableEq

def Mark.byte : Mark → UInt8
  | .lower => VolumeClaim.byte 'e'
  | .upper => VolumeClaim.byte 'E'

inductive Suffix where
  | binary (u : BinaryUnit)
  | decimal (u : DecimalUnit)
  | exponent (mark : Mark) (sign : Sign) (digits : Digits)

def Suffix.text : Suffix → Text
  | .binary u => u.text
  | .decimal u => u.text
  | .exponent mark sign digits => mark.byte :: (sign.text ++ digits.text)

def Suffix.value : Suffix → ℚ
  | .binary u => 1024 ^ u.power
  | .decimal u => 10 ^ u.power
  | .exponent _ sign digits => 10 ^ (sign.factor * digits.value)

def Suffix.family : Suffix → Family
  | .binary _ => .binarySI
  | .decimal _ => .decimalSI
  | .exponent .. => .decimalExponent

/-- no exponent of a magnitude above 1024 -/
def Suffix.Bounded : Suffix → Prop
  | .exponent _ _ digits => digits.value ≤ 1024
  | _ => True

/-! ## Literals -/

structure Literal where
  sign : Sign
  number : Number
  suffix : Suffix

def Literal.text (l : Literal) : Text := l.sign.text ++ (l.number.text ++ l.suffix.text)

def Literal.value (l : Literal) : ℚ := l.sign.factor * l.number.value * l.suffix.value

def Literal.family (l : Literal) : Family := l.suffix.family

def Literal.Bounded (l : Literal) : Prop := l.suffix.Bounded

end VolumeClaim.Grammar
