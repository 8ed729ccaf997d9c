import DrawPile.Chance
import DrawPile.Entry
import DrawPile.Json

/-! Weights are whole numbers from 1 to 2^63 - 1. Anything can be asked for its weight: numbers
are rounded half up and brought into the range, texts are read as numerals, and what is no
number weighs 1. A weight expression is a plain numeral, or dice such as `2d6+1`, which are rolled
anew each time; an expression that is neither counts as 1. -/
namespace DrawPile.Weight

def least : Nat := 1
def greatest : Nat := 0x7fffffffffffffff

def ofInt (n : Int) : Nat := (min (greatest : Int) (max (least : Int) n)).toNat

def ofFloat (x : Binary64) : Nat :=
  match (x.add .half).floor? with
  | some n => ofInt n
  | none => least

def ofText (t : Text) : Nat :=
  match Binary64.parseLoose? t with
  | some x => ofFloat x
  | none => least

def ofJson : Json → Nat
  | .int n => ofInt n
  | .bool b => ofInt (if b then 1 else 0)
  | .float x => ofFloat x
  | .text t => ofText t
  | _ => least

inductive Quantity
  | whole (n : Int)
  | fractional (x : Binary64)
  deriving DecidableEq, Repr

/-- Dice as they are written: digits of the count, which may be missing, of the sides and of the
modifier. -/
structure Dice where
  count : Text
  sides : Text
  modifier : Option (Bool × Text)
  deriving DecidableEq, Repr

def modifier? : Text → Option (Option (Bool × Text))
  | [] => some none
  | c :: digits =>
    if (c = '+' ∨ c = '-') ∧ digits ≠ [] ∧ digits.all Text.isDigit then
      some (some (decide (c = '-'), digits))
    else none

def dice? (t : Text) : Option Dice :=
  let (count, t) := Decimal.splitDigits t
  match t with
  | [] => none
  | c :: t =>
    let (sides, t) := Decimal.splitDigits t
    if (c = 'd' ∨ c = 'D') ∧ sides ≠ [] then (modifier? t).map fun m => ⟨count, sides, m⟩
    else none

def readDigits (digits : Text) : Except Error Nat :=
  if Text.maxDigits < digits.length then .error (.tooManyDigits digits.length)
  else .ok (Text.toNat digits)

def Dice.countOf (d : Dice) : Except Error Nat :=
  if d.count = [] then .ok 1 else readDigits d.count

def Dice.modifierOf (d : Dice) : Except Error Int :=
  match d.modifier with
  | none => .ok 0
  | some (negative, digits) =>
    (readDigits digits).map fun n => if negative then -(n : Int) else n

/-- One die shows from 1 to its number of sides. -/
def rollDie (sides : Int) (s : Source) : Outcome Source Int := (s.scaled sides).map (· + 1)

def rollDice (sides : Int) : Nat → Int → Source → Outcome Source Int
  | 0, sum, s => (s, .ok sum)
  | count + 1, sum, s =>
    (rollDie sides s).andThen fun s n => rollDice sides count (sum + n) s

/- All three numbers are read before the first die is rolled. -/
def Dice.roll (d : Dice) (s : Source) : Outcome Source Int :=
  (Outcome.of s d.countOf).andThen fun s count =>
  (Outcome.of s (readDigits d.sides)).andThen fun s sides =>
  (Outcome.of s d.modifierOf).andThen fun s modifier =>
  (rollDice sides count 0 s).map (· + modifier)

/-- The finite number that a text spells. -/
def literal? (t : Text) : Option Quantity :=
  match Binary64.parse? t with
  | some (.finite s r) =>
    some (match (Binary64.finite s r).toInt? with
      | some n => .whole n
      | none => .fractional (.finite s r))
  | _ => none

def evaluate (expression : Text) (s : Source) : Outcome Source Quantity :=
  let t := Text.trim expression
  match literal? t with
  | some q => (s, .ok q)
  | none =>
    match dice? t with
    | none => (s, .ok (.whole 1))
    | some d => (d.roll s).map .whole

def ofQuantity : Quantity → Nat
  | .whole n => ofInt n
  | .fractional x => ofFloat x

def ofEntry (e : Entry) (s : Source) : Outcome Source Nat :=
  match e.weight with
  | none => (s, .ok least)
  | some expression => (evaluate expression s).map ofQuantity

end DrawPile.Weight
