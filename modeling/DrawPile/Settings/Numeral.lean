import DrawPile.Error
import DrawPile.Number.Decimal

/-! Whole numbers as people type them into settings: with blanks around them, a sign, zeros in
front, underscores between digits, and a point with zeros behind it. Without these a plain numeral
has to be left. -/
namespace DrawPile.Settings.Numeral

/- The separators among the controls are no blanks here. -/
def isSpace (c : Char) : Bool :=
  Text.isBlank c && !(decide (0x1c ≤ c.toNat) && decide (c.toNat ≤ 0x1f))

def isLeadingDigit (c : Char) : Bool := Text.isDigit c && c != '0'

def dropZeroFraction (t : Text) : Text :=
  match t.dropWhile (· != '.') with
  | _ :: '0' :: zeros => if zeros.all (· == '0') then t.takeWhile (· != '.') else t
  | _ => t

/-- Before the first digit above zero come zeros, with underscores after the first, and behind them a
minus may stand. Of zeros and underscores alone the last is kept. -/
def dropLeadingZeros? : Text → Option Text
  | '0' :: t =>
    match t.dropWhile fun c => c == '0' || c == '_' with
    | [] => some [t.getLastD '0']
    | c :: rest => if isLeadingDigit c || c == '-' then some (c :: rest) else none
  | c :: t => if isLeadingDigit c then some (c :: t) else none
  | [] => none

def dropUnderscores (t : Text) : Text :=
  if t.head? = some '_' ∨ t.getLast? = some '_' ∨ Text.hasPart "__".toList t then t
  else t.filter (· != '_')

def splitMinus : Text → Bool × Text
  | '-' :: t => (true, t)
  | t => (false, t)

def isTooLong (t : Text) : Bool :=
  let (_, body) := splitMinus t
  body.head?.any isLeadingDigit &&
    decide (Text.maxDigits < (body.takeWhile Text.isDigit).length)

def plain? (t : Text) : Option Int :=
  let (negative, digits) := splitMinus t
  if digits = ['0'] ∨ digits.head?.any isLeadingDigit && digits.all Text.isDigit then
    if isTooLong t then none
    else some (if negative then -(Text.toNat digits : Int) else Text.toNat digits)
  else none

def clean? (t : Text) : Option Text :=
  let (negative, body) := Decimal.splitSign (Text.trimOf isSpace t)
  (dropLeadingZeros? (dropZeroFraction body)).map fun digits =>
    if negative then '-' :: dropUnderscores digits else dropUnderscores digits

/-- Only a plain numeral at the start of the text is refused for its size. -/
def read (t : Text) : Except Fault Int :=
  if isTooLong t then .error .outOfSize
  else match (clean? t).bind plain? with
    | some n => .ok n
    | none => .error .unreadable

end DrawPile.Settings.Numeral
