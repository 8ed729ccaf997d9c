import DrawPile.Json
import DrawPile.Number.Decimal
import DrawPile.Text.Encoding

/-! Reading JSON texts. Beyond the standard, `NaN`, `Infinity` and `-Infinity` are floats. A
number with a point or an exponent is a float, any other is a whole number; one of more than 4300
digits is refused. Of members with one name, the first gives the place and the last the value. An
interpreter's limit to the depth of calls is not modelled, so a text may be nested to any depth. A
string with a surrogate alone is none that could be given, so it is not read. -/
namespace DrawPile.Json

def isGap (c : Char) : Bool := c = ' ' || c = '\t' || c = '\n' || c = '\r'

def skipGaps (t : Text) : Text := t.dropWhile isGap

def hexValue? (c : Char) : Option Nat :=
  if '0' ≤ c ∧ c ≤ '9' then some (c.toNat - 48)
  else if 'a' ≤ c ∧ c ≤ 'f' then some (c.toNat - 87)
  else if 'A' ≤ c ∧ c ≤ 'F' then some (c.toNat - 55)
  else none

def escapeCode? (c : Char) : Option Nat :=
  if c = '"' ∨ c = '\\' ∨ c = '/' then some c.toNat
  else if c = 'b' then some 8
  else if c = 'f' then some 12
  else if c = 'n' then some 10
  else if c = 'r' then some 13
  else if c = 't' then some 9
  else none

/-- Where the reader of a string stands: between characters, after a backslash, or among the
hexadecimal digits of an escape. -/
inductive StringState
  | plain
  | escaped
  | code (missing value : Nat)

/- Codes so far, the last one first, and the text from after the opening quote. -/
def stringCodes : StringState → List Nat → Text → Option (List Nat × Text)
  | _, _, [] => none
  | .plain, codes, c :: t =>
    if c = '"' then some (codes.reverse, t)
    else if c = '\\' then stringCodes .escaped codes t
    else if c.toNat < 0x20 then none
    else stringCodes .plain (c.toNat :: codes) t
  | .escaped, codes, c :: t =>
    if c = 'u' then stringCodes (.code 4 0) codes t
    else match escapeCode? c with
      | some n => stringCodes .plain (n :: codes) t
      | none => none
  | .code missing value, codes, c :: t =>
    match hexValue? c with
    | none => none
    | some d =>
      if missing ≤ 1 then stringCodes .plain ((16 * value + d) :: codes) t
      else stringCodes (.code (missing - 1) (16 * value + d)) codes t

def string? (t : Text) : Option (Text × Text) :=
  (stringCodes .plain [] t).bind fun (codes, rest) =>
    (Text.ofCodes? (Text.ofUnits codes)).map fun s => (s, rest)

/-- The digits after a point, which must be there if the point is. -/
def fraction? : Text → Option (Option Text × Text)
  | '.' :: t =>
    let (digits, rest) := Decimal.splitDigits t
    if digits.isEmpty then none else some (some digits, rest)
  | t => some (none, t)

def exponentPart? : Text → Option (Option Int × Text)
  | [] => some (none, [])
  | c :: t =>
    if c = 'e' ∨ c = 'E' then
      let (negative, t) := Decimal.splitSign t
      let (digits, rest) := Decimal.splitDigits t
      if digits.isEmpty then none
      else some (some (if negative then -(Text.toNat digits : Int) else Text.toNat digits), rest)
    else some (none, c :: t)

def ofNumeral? (negative : Bool) (whole : Text) : Option Text → Option Int → Option Json
  | none, none =>
    if Text.maxDigits < whole.length then none
    else some (.int (if negative then -(Text.toNat whole : Int) else Text.toNat whole))
  | fraction, exponent =>
    let fraction := fraction.getD []
    some (.float (Decimal.toBinary64
      ⟨negative, Text.toNat (whole ++ fraction), exponent.getD 0 - fraction.length⟩))

def number? (t : Text) : Option (Json × Text) :=
  let (negative, body) := match t with
    | '-' :: body => (true, body)
    | body => (false, body)
  let (whole, t) := Decimal.splitDigits body
  if whole.isEmpty || (whole.head? == some '0' && decide (1 < whole.length)) then none
  else (fraction? t).bind fun (fraction, t) =>
    (exponentPart? t).bind fun (exponent, t) =>
      (ofNumeral? negative whole fraction exponent).map fun v => (v, t)

def after? : Text → Text → Option Text
  | [], t => some t
  | c :: cs, d :: t => if c = d then after? cs t else none
  | _ :: _, [] => none

def words : List (Text × Json) :=
  [("null".toList, .null), ("true".toList, .bool true), ("false".toList, .bool false),
   ("NaN".toList, .float .nan), ("Infinity".toList, .float (.infinite false)),
   ("-Infinity".toList, .float (.infinite true))]

def word? (t : Text) : Option (Json × Text) :=
  words.findSome? fun w => (after? w.1 t).map fun rest => (w.2, rest)

/- A value at the start of a text, and what follows it. Each call either takes a character or
passes on to one that does, so twice the length bounds the depth of calls. -/
mutual

def value? : Nat → Text → Option (Json × Text)
  | 0, _ => none
  | depth + 1, t =>
    match t with
    | [] => none
    | c :: rest =>
      if c = '"' then (string? rest).map fun (s, t) => (.text s, t)
      else if c = '[' then
        match skipGaps rest with
        | ']' :: t => some (.list [], t)
        | t => (items? depth t).map fun (vs, t) => (.list vs, t)
      else if c = '\x7b' then
        match skipGaps rest with
        | '\x7d' :: t => some (.object [], t)
        | t => (members? depth t).map fun (ms, t) => (.object (Catalog.ofList ms), t)
      else (word? t).or (number? t)

def items? : Nat → Text → Option (List Json × Text)
  | 0, _ => none
  | depth + 1, t =>
    match value? depth t with
    | none => none
    | some (v, t) =>
      match skipGaps t with
      | ']' :: t => some ([v], t)
      | ',' :: t => (items? depth (skipGaps t)).map fun (vs, t) => (v :: vs, t)
      | _ => none

def members? : Nat → Text → Option (List (Text × Json) × Text)
  | 0, _ => none
  | depth + 1, t =>
    match t with
    | '"' :: t =>
      match string? t with
      | none => none
      | some (name, t) =>
        match skipGaps t with
        | ':' :: t =>
          match value? depth (skipGaps t) with
          | none => none
          | some (v, t) =>
            match skipGaps t with
            | '\x7d' :: t => some ([(name, v)], t)
            | ',' :: t =>
              (members? depth (skipGaps t)).map fun (ms, t) => ((name, v) :: ms, t)
            | _ => none
        | _ => none
    | _ => none

end

def parse? (t : Text) : Option Json :=
  match value? (2 * t.length + 2) (skipGaps t) with
  | some (v, rest) => if (skipGaps rest).isEmpty then some v else none
  | none => none

def parseBytes? (bytes : List UInt8) : Option Json :=
  (Text.codes? bytes).bind fun codes => (Text.ofCodes? codes).bind parse?

end DrawPile.Json
