/-! Texts as lists of characters, with lengths, cuts and order by code point. A surrogate is no
character, so no text has one. The blank characters are those of Unicode 14 with the white-space
property and the four information separators. -/
namespace DrawPile

abbrev Text := List Char

namespace Text

def inRanges (ranges : List (Nat × Nat)) (c : Char) : Bool :=
  ranges.any fun r => decide (r.1 ≤ c.toNat) && decide (c.toNat ≤ r.2)

def blankRanges : List (Nat × Nat) :=
  [(0x09, 0x0d), (0x1c, 0x20), (0x85, 0x85), (0xa0, 0xa0), (0x1680, 0x1680), (0x2000, 0x200a),
   (0x2028, 0x2029), (0x202f, 0x202f), (0x205f, 0x205f), (0x3000, 0x3000)]

def isBlank (c : Char) : Bool := inRanges blankRanges c

def trimOf (p : Char → Bool) (t : Text) : Text :=
  ((t.dropWhile p).reverse.dropWhile p).reverse

def trim (t : Text) : Text := trimOf isBlank t

def hasPart (part : Text) : Text → Bool
  | [] => part.isEmpty
  | c :: cs => part.isPrefixOf (c :: cs) || hasPart part cs

def ofNat (n : Nat) : Text := Nat.toDigits 10 n

def ofInt : Int → Text
  | .ofNat n => ofNat n
  | .negSucc n => '-' :: ofNat (n + 1)

def isDigit (c : Char) : Bool := decide ('0' ≤ c) && decide (c ≤ '9')

/-- No whole number of more digits is read from a text or written as one. -/
def maxDigits : Nat := 4300

def isWritable (n : Int) : Bool := decide ((ofNat n.natAbs).length ≤ maxDigits)

def toNat (digits : Text) : Nat := Nat.ofDigitChars 10 digits 0

def join (between : Text) : List Text → Text
  | [] => []
  | [t] => t
  | t :: u :: rest => t ++ between ++ join between (u :: rest)

/-- Where a cut falls: a negative place counts back from the end. -/
def sliceEnd (length : Nat) : Int → Nat
  | .ofNat n => n
  | .negSucc n => length - (n + 1)

def takeInt (n : Int) (t : Text) : Text := t.take (sliceEnd t.length n)

def hexDigits (width n : Nat) : Text :=
  let digits := Nat.toDigits 16 n
  List.replicate (width - digits.length) '0' ++ digits

end Text

end DrawPile
