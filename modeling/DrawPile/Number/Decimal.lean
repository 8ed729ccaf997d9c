import DrawPile.Number.Binary64
import DrawPile.Text.Basic

/-! Decimal numerals and the floats they stand for. A numeral is read in three ways: plain, as
ASCII digits with an optional point and exponent; plain or one of the names of infinity and not
a number; and loosely, as people type it, with blanks around it, single underscores between
digits, and digits of any script (Unicode 14; each has its ten in a row). -/
namespace DrawPile

namespace Text

def zeroDigits : List Nat :=
  [0x30, 0x660, 0x6f0, 0x7c0, 0x966, 0x9e6, 0xa66, 0xae6, 0xb66, 0xbe6, 0xc66, 0xce6, 0xd66,
   0xde6, 0xe50, 0xed0, 0xf20, 0x1040, 0x1090, 0x17e0, 0x1810, 0x1946, 0x19d0, 0x1a80, 0x1a90,
   0x1b50, 0x1bb0, 0x1c40, 0x1c50, 0xa620, 0xa8d0, 0xa900, 0xa9d0, 0xa9f0, 0xaa50, 0xabf0,
   0xff10, 0x104a0, 0x10d30, 0x11066, 0x110f0, 0x11136, 0x111d0, 0x112f0, 0x11450, 0x114d0,
   0x11650, 0x116c0, 0x11730, 0x118e0, 0x11950, 0x11c50, 0x11d50, 0x11da0, 0x16a60, 0x16ac0,
   0x16b50, 0x1d7ce, 0x1d7d8, 0x1d7e2, 0x1d7ec, 0x1d7f6, 0x1e140, 0x1e2f0, 0x1e950, 0x1fbf0]

def digitValue? (c : Char) : Option Nat :=
  (zeroDigits.find? fun z => decide (z ≤ c.toNat) && decide (c.toNat ≤ z + 9)).map (c.toNat - ·)

end Text

/-- The number `digits · 10^exponent`. -/
structure Decimal where
  negative : Bool
  digits : Nat
  exponent : Int

namespace Decimal

/- Exponents out of range are settled before any power of ten is taken: no number of 311 digits
before the point is finite, and none with 330 zeros after it differs from zero. -/
def toBinary64 (d : Decimal) : Binary64 :=
  let size := (Nat.toDigits 10 d.digits).length + d.exponent
  if d.digits = 0 ∨ size < -330 then .rounded d.negative 0 1
  else if 310 < size then .infinite d.negative
  else match d.exponent with
    | .ofNat e => .rounded d.negative (Binary64.unitsInOne * (d.digits * Nat.pow 10 e)) 1
    | .negSucc e => .rounded d.negative (Binary64.unitsInOne * d.digits) (Nat.pow 10 (e + 1))

def splitDigits (t : Text) : Text × Text :=
  (t.takeWhile Text.isDigit, t.dropWhile Text.isDigit)

def splitSign : Text → Bool × Text
  | '-' :: t => (true, t)
  | '+' :: t => (false, t)
  | t => (false, t)

def exponent? : Text → Option Int
  | [] => some 0
  | c :: t =>
    if c = 'e' ∨ c = 'E' then
      let (negative, digits) := splitSign t
      if digits.isEmpty || !digits.all Text.isDigit then none
      else some (if negative then -(Text.toNat digits : Int) else Text.toNat digits)
    else none

def splitFraction : Text → Text × Text
  | '.' :: t => splitDigits t
  | t => ([], t)

/-- A numeral after its sign, with a digit on at least one side of the point. -/
def ofBody? (negative : Bool) (t : Text) : Option Decimal :=
  let (whole, t) := splitDigits t
  let (fraction, t) := splitFraction t
  if whole.isEmpty && fraction.isEmpty then none
  else (exponent? t).map fun e =>
    ⟨negative, Text.toNat (whole ++ fraction), e - fraction.length⟩

end Decimal

namespace Binary64

def lowerAscii (t : Text) : Text := t.map Char.toLower

def infinityNames : List Text := ["inf".toList, "infinity".toList]

def parse? (t : Text) : Option Binary64 :=
  let (negative, body) := Decimal.splitSign t
  if lowerAscii body ∈ infinityNames then some (.infinite negative)
  else if lowerAscii body = "nan".toList then some .nan
  else (Decimal.ofBody? negative body).map Decimal.toBinary64

def dropSeparators (afterDigit : Bool) : Text → Option Text
  | [] => some []
  | '_' :: c :: t =>
    if afterDigit && Text.isDigit c then (dropSeparators true t).map (c :: ·) else none
  | c :: t => if c = '_' then none else (dropSeparators (Text.isDigit c) t).map (c :: ·)

/-- Blanks and digits by their ASCII kin; no other characters beyond ASCII occur in numerals. -/
def plainChar? (c : Char) : Option Char :=
  if c.toNat < 128 then some c
  else if Text.isBlank c then some ' '
  else (Text.digitValue? c).map Nat.digitChar

def isAsciiBlank (c : Char) : Bool := c = ' ' || (decide (9 ≤ c.toNat) && decide (c.toNat ≤ 13))

def parseLoose? (t : Text) : Option Binary64 :=
  (t.mapM plainChar?).bind fun plain =>
    (dropSeparators false (Text.trimOf isAsciiBlank plain)).bind parse?

end Binary64

end DrawPile
