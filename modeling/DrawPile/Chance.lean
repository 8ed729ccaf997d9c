import DrawPile.Outcome
import DrawPile.Number.Binary64

/-! Randomness. A source gives one float from 0 to 1 per call, both ends included, and counts its
calls; what a draw does is a function of the numbers it is given. -/
namespace DrawPile

def oneRank : Nat := 1023 * binade

structure Chance where
  rank : Nat
  le_one : rank ≤ oneRank

namespace Chance

def toBinary64 (c : Chance) : Binary64 :=
  .finite false ⟨c.rank, Nat.lt_of_le_of_lt c.le_one (by decide)⟩

def ofBinary64 : Binary64 → Chance
  | .finite false r => ⟨min r oneRank, Nat.min_le_right _ _⟩
  | .infinite false => ⟨oneRank, Nat.le_refl _⟩
  | _ => ⟨0, by decide⟩

/-- The floor of the product with a whole number; `none` when the number is beyond the floats. -/
def scale? (c : Chance) (n : Int) : Option Int :=
  (Binary64.ofInt? n).bind fun x => (c.toBinary64.mul x).floor?

end Chance

structure Source where
  values : Nat → Chance
  calls : Nat := 0

namespace Source

def next (s : Source) : Chance × Source := (s.values s.calls, { s with calls := s.calls + 1 })

def cycle (chances : Array Chance) : Source where
  values := fun n => chances[n % chances.size]?.getD ⟨0, by decide⟩

def scaled (s : Source) (n : Int) : Outcome Source Int :=
  let (c, s) := s.next
  match c.scale? n with
  | none => (s, .error .integerTooLarge)
  | some m => (s, .ok m)

/-- A source is called once, whether or not the number can be scaled. -/
theorem scaled_eq (s : Source) (n : Int) :
    s.scaled n = ({ s with calls := s.calls + 1 },
      match (s.values s.calls).scale? n with
      | none => .error .integerTooLarge
      | some m => .ok m) := by
  unfold scaled next
  simp only
  split <;> simp_all

end Source

/-- A position below `length`, the last one when the chance is 1. -/
def pickIndex (length : Int) (s : Source) : Outcome Source Int :=
  (s.scaled length).map fun n => min n (length - 1)

end DrawPile
