import DrawPile.Text.Basic

/-! Texts from bytes. The encoding is UTF-8, UTF-16 or UTF-32, told by a byte order mark or, with
none, by where the zero bytes among the first four stand: the first two characters of a JSON
text are ASCII. Bytes give code points, and surrogates may be among them; what has one that is not
half of a pair is not the text of anything. -/
namespace DrawPile.Text

def isHighSurrogate (n : Nat) : Bool := decide (0xd800 ≤ n) && decide (n ≤ 0xdbff)
def isLowSurrogate (n : Nat) : Bool := decide (0xdc00 ≤ n) && decide (n ≤ 0xdfff)

def joinSurrogates (high low : Nat) : Nat := 0x10000 + (high - 0xd800) * 0x400 + (low - 0xdc00)

/- `done` has the code points so far, the last one first. -/
def joinPairs (done : List Nat) : List Nat → List Nat
  | [] => done.reverse
  | [n] => (n :: done).reverse
  | high :: low :: rest =>
    if isHighSurrogate high && isLowSurrogate low then
      joinPairs (joinSurrogates high low :: done) rest
    else joinPairs (high :: done) (low :: rest)

def ofUnits (units : List Nat) : List Nat := joinPairs [] units

/-- The text of some code points, if no surrogate is among them. -/
def ofCodes? (codes : List Nat) : Option Text :=
  if codes.all fun n => decide n.isValidChar then some (codes.map Char.ofNat) else none

inductive Encoding
  | utf8
  | utf16 (bigEndian : Bool)
  | utf32 (bigEndian : Bool)
  deriving DecidableEq, Repr

def ofBytes (bytes : List UInt8) : Nat := bytes.foldl (fun n b => 256 * n + b.toNat) 0

def words? (bigEndian : Bool) : Nat → List UInt8 → Option (List Nat)
  | _, [] => some []
  | 2, a :: b :: rest =>
    (words? bigEndian 2 rest).map (ofBytes (if bigEndian then [a, b] else [b, a]) :: ·)
  | 4, a :: b :: c :: d :: rest =>
    (words? bigEndian 4 rest).map
      (ofBytes (if bigEndian then [a, b, c, d] else [d, c, b, a]) :: ·)
  | _, _ => none

/-- Where a reader of UTF-8 stands: bytes still missing, what they add to, and the least code point
that needs as many. -/
structure Utf8State where
  missing : Nat := 0
  value : Nat := 0
  least : Nat := 0

def Utf8State.first? (n : Nat) : Option Utf8State :=
  if n < 0x80 then some ⟨0, n, 0⟩
  else if n < 0xc0 then none
  else if n < 0xe0 then some ⟨1, n - 0xc0, 0x80⟩
  else if n < 0xf0 then some ⟨2, n - 0xe0, 0x800⟩
  else if n < 0xf8 then some ⟨3, n - 0xf0, 0x10000⟩
  else none

def Utf8State.next? (s : Utf8State) (n : Nat) : Option Utf8State :=
  if s.missing = 0 then first? n
  else if 0x80 ≤ n ∧ n < 0xc0 then some ⟨s.missing - 1, 64 * s.value + (n - 0x80), s.least⟩
  else none

/- Surrogates are let through, but no code point is spelled with more bytes than it needs. -/
def utf8Codes? (s : Utf8State) (done : List Nat) : List UInt8 → Option (List Nat)
  | [] => if s.missing = 0 then some done.reverse else none
  | b :: rest =>
    match s.next? b.toNat with
    | none => none
    | some s =>
      if s.missing ≠ 0 then utf8Codes? s done rest
      else if s.least ≤ s.value ∧ s.value ≤ 0x10ffff then utf8Codes? {} (s.value :: done) rest
      else none

def codesAs? (bytes : List UInt8) : Encoding → Option (List Nat)
  | .utf8 => utf8Codes? {} [] bytes
  | .utf16 bigEndian => (words? bigEndian 2 bytes).map ofUnits
  | .utf32 bigEndian =>
    (words? bigEndian 4 bytes).bind fun codes =>
      if codes.all fun n => decide (n ≤ 0x10ffff) then some codes else none

/- The longer marks stand before those they begin with. -/
def marks : List (List UInt8 × Encoding) :=
  [([0x00, 0x00, 0xfe, 0xff], .utf32 true), ([0xff, 0xfe, 0x00, 0x00], .utf32 false),
   ([0xfe, 0xff], .utf16 true), ([0xff, 0xfe], .utf16 false), ([0xef, 0xbb, 0xbf], .utf8)]

def guess : List UInt8 → Encoding
  | a :: b :: c :: d :: _ =>
    if a = 0 then (if b = 0 then .utf32 true else .utf16 true)
    else if b = 0 then (if c = 0 ∧ d = 0 then .utf32 false else .utf16 false)
    else .utf8
  | [a, b] => if a = 0 then .utf16 true else if b = 0 then .utf16 false else .utf8
  | _ => .utf8

def detect (bytes : List UInt8) : Encoding × List UInt8 :=
  match marks.find? (·.1.isPrefixOf bytes) with
  | some (mark, encoding) => (encoding, bytes.drop mark.length)
  | none => (guess bytes, bytes)

def codes? (bytes : List UInt8) : Option (List Nat) :=
  let (encoding, rest) := detect bytes
  codesAs? rest encoding

end DrawPile.Text
