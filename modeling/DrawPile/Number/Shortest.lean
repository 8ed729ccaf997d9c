import DrawPile.Number.Decimal

/-! The shortest decimal that reads back as the same float, and of several the nearest to it. Seventeen
digits always suffice. -/
namespace DrawPile.Binary64

def leadingPlace (rank : Nat) : Int :=
  ((Nat.toDigits 10 (units rank * Nat.pow 10 400 / unitsInOne)).length : Int) - 401

def overPlace (rank : Nat) : Int → Nat × Nat
  | .ofNat k => (units rank, unitsInOne * Nat.pow 10 k)
  | .negSucc k => (units rank * Nat.pow 10 (k + 1), unitsInOne)

def readsBack (rank : Nat) (digits : Nat) (place : Int) : Bool :=
  match Decimal.toBinary64 ⟨false, digits, place⟩ with
  | .finite _ r => decide (r.val = rank)
  | _ => false

/-- The digits of the better of the two neighbours on the grid of one place, if one reads
back. -/
def onGrid? (rank : Nat) (place : Int) : Option Nat :=
  let (num, den) := overPlace rank place
  let nearer := roundHalfEven num den
  let farther := if nearer = num / den then nearer + 1 else num / den
  if readsBack rank nearer place then some nearer
  else if readsBack rank farther place then some farther
  else none

def shortest (rank : Nat) : Nat × Int :=
  let top := leadingPlace rank
  let grids := (List.range 17).map fun (n : Nat) => top - (n : Int)
  (grids.findSome? fun place => (onGrid? rank place).map fun d => (d, place)).getD (0, 0)

def trimZeros (digits : Text) (place : Int) : Text × Int :=
  let kept := (digits.reverse.dropWhile (· == '0')).reverse
  (kept, place + (digits.length - kept.length : Nat))

def exponentText (e : Int) : Text :=
  let digits := Text.ofNat e.natAbs
  'e' :: (if e < 0 then '-' else '+') ::
    (List.replicate (2 - digits.length) '0' ++ digits)

/-- Positional for leading digits from the fourth place behind the point to the sixteenth before
it, with at least one digit on each side of the point; scientific otherwise. -/
def magnitudeText (rank : Nat) : Text :=
  if rank = 0 then "0.0".toList
  else
    let (digits, place) := shortest rank
    let (digits, place) := trimZeros (Text.ofNat digits) place
    let point := place + digits.length
    if -4 < point ∧ point ≤ 16 then
      if point ≤ 0 then "0.".toList ++ List.replicate point.natAbs '0' ++ digits
      else if 0 ≤ place then digits ++ List.replicate place.natAbs '0' ++ ".0".toList
      else digits.take point.natAbs ++ '.' :: digits.drop point.natAbs
    else
      let fraction := if digits.length ≤ 1 then [] else '.' :: digits.drop 1
      digits.take 1 ++ fraction ++ exponentText (point - 1)

def toTextWith (infinity nan : Text) : Binary64 → Text
  | .finite s r => (if s then ['-'] else []) ++ magnitudeText r
  | .infinite s => (if s then ['-'] else []) ++ infinity
  | .nan => nan

def toText : Binary64 → Text := toTextWith "inf".toList "nan".toList

end DrawPile.Binary64
