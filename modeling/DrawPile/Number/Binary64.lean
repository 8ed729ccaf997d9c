/-! Binary floating-point numbers of 64 bits, exactly. A finite magnitude is known by its rank,
its place among all finite magnitudes counted from zero, and every magnitude is a whole number
of units, the unit being the least positive one, 2^-1074. Every result is the exact one rounded once, to
the nearest number and on a tie to the even rank. -/
namespace DrawPile

/-- The magnitudes from one power of two to the next: 2^52. -/
def binade : Nat := 0x10000000000000

def infinityRank : Nat := 2047 * binade

inductive Binary64
  | finite (negative : Bool) (rank : Fin infinityRank)
  | infinite (negative : Bool)
  | nan
  deriving DecidableEq, Repr

namespace Binary64

def unitsInOne : Nat := 1 <<< 1074

/- In the first two binades the ranks step by one unit; each later one doubles the step. -/
def units (rank : Nat) : Nat :=
  if rank < binade then rank
  else (binade + rank % binade) <<< (rank / binade - 1)

def roundHalfEven (num den : Nat) : Nat :=
  let q := num / den
  let twice := 2 * (num % den)
  if twice < den then q
  else if den < twice then q + 1
  else q + q % 2

/-- The rank nearest to `num / den` units; from `infinityRank` on it is out of range. It is kept
closed, and constants stand on the left of products: opened at a variable, a large literal on the
right would be counted down one by one. -/
@[irreducible] def nearestRank (num den : Nat) : Nat :=
  let doublings := Nat.log2 (num / den) - 52
  binade * doublings + roundHalfEven num (den <<< doublings)

def rounded (negative : Bool) (num den : Nat) : Binary64 :=
  if h : nearestRank num den < infinityRank then .finite negative ⟨nearestRank num den, h⟩
  else .infinite negative

def signedUnits (negative : Bool) (rank : Nat) : Int :=
  if negative then -(units rank : Int) else units rank

def ofRatio (num den : Nat) : Binary64 := rounded false (unitsInOne * num) den

def ofInt? (n : Int) : Option Binary64 :=
  match rounded (decide (n < 0)) (unitsInOne * n.natAbs) 1 with
  | .finite s r => some (.finite s r)
  | _ => none

def zero : Binary64 := .finite false ⟨0, by decide⟩
def half : Binary64 := .finite false ⟨1022 * binade, by decide⟩
def hundred : Binary64 := ofRatio 100 1

def mul : Binary64 → Binary64 → Binary64
  | .nan, _ => .nan
  | _, .nan => .nan
  | .infinite s, .infinite t => .infinite (s != t)
  | .infinite s, .finite t r => if r.val = 0 then .nan else .infinite (s != t)
  | .finite s r, .infinite t => if r.val = 0 then .nan else .infinite (s != t)
  | .finite s a, .finite t b => rounded (s != t) (units a * units b) unitsInOne

def add : Binary64 → Binary64 → Binary64
  | .nan, _ => .nan
  | _, .nan => .nan
  | .infinite s, .infinite t => if s = t then .infinite s else .nan
  | .infinite s, .finite _ _ => .infinite s
  | .finite _ _, .infinite t => .infinite t
  | .finite s a, .finite t b =>
    let sum := signedUnits s a + signedUnits t b
    if sum = 0 then rounded (s && t) 0 1 else rounded (decide (sum < 0)) sum.natAbs 1

def floor? : Binary64 → Option Int
  | .finite s r => some (signedUnits s r / (unitsInOne : Int))
  | _ => none

def truncate? : Binary64 → Option Int
  | .finite s r => some ((signedUnits s r).tdiv (unitsInOne : Int))
  | _ => none

def toInt? : Binary64 → Option Int
  | .finite s r =>
    let n := signedUnits s r
    if n % (unitsInOne : Int) = 0 then some (n / (unitsInOne : Int)) else none
  | _ => none

def signBit : Nat := 0x8000000000000000

/-- The interchange word: sign, then rank. -/
def toBits : Binary64 → Nat
  | .finite s r => (if s then signBit else 0) + r
  | .infinite s => (if s then signBit else 0) + infinityRank
  | .nan => 0x7ff8000000000000

end Binary64

end DrawPile
