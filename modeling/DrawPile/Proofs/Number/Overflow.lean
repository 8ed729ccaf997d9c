import DrawPile.Chance
import DrawPile.Proofs.Number.Rounding

/-! Beyond the floats. Whole numbers are out of range from the middle between the greatest float and
the next power of two on, where the tie goes to the even rank; a chance times a float never is. -/
namespace DrawPile

namespace Binary64

/-- The least whole number without a float: 2^1024 - 2^970. -/
def overflowBound : Nat := (1 <<< 1024) - (1 <<< 970)

theorem unitsInOne_pos : 0 < unitsInOne := by decide +kernel

theorem units_around_overflowBound :
    units (infinityRank - 1) + units infinityRank = 2 * (unitsInOne * overflowBound) := by
  decide +kernel

theorem nearestRank_overflowBound :
    nearestRank (unitsInOne * overflowBound) 1 = infinityRank := by decide +kernel

theorem roundHalfEven_mul_right (num den : Nat) {k : Nat} (positive : 0 < k) :
    roundHalfEven (num * k) (den * k) = roundHalfEven num den := by
  have twice (rest : Nat) : 2 * (rest * k) = 2 * rest * k := (Nat.mul_assoc _ _ _).symm
  simp only [roundHalfEven, Nat.mul_div_mul_right _ _ positive, Nat.mul_mod_mul_right, twice,
    Nat.mul_lt_mul_right positive]

theorem nearestRank_mul_right (num den : Nat) {k : Nat} (positive : 0 < k) :
    nearestRank (num * k) (den * k) = nearestRank num den := by
  have shifted (doublings : Nat) : (den * k) <<< doublings = (den <<< doublings) * k := by
    rw [Nat.shiftLeft_eq, Nat.shiftLeft_eq, Nat.mul_right_comm]
  unfold nearestRank
  simp only [Nat.mul_div_mul_right _ _ positive, shifted, roundHalfEven_mul_right _ _ positive]

/-- A quotient is out of range exactly if it reaches the bound. -/
theorem infinityRank_le_nearestRank_iff (num : Nat) {den : Nat} (positive : 0 < den) :
    infinityRank ≤ nearestRank (unitsInOne * num) den ↔ overflowBound * den ≤ num := by
  have middle : (units (infinityRank - 1) + units infinityRank) * den =
      2 * (unitsInOne * (overflowBound * den)) := by
    rw [units_around_overflowBound]
    ring
  have infinity_pos : 0 < infinityRank := by decide
  constructor
  · intro outside
    have higher : infinityRank - 1 < nearestRank (unitsInOne * num) den := by omega
    have nearer := below_nearestRank higher
    have ordered := Nat.mul_le_mul_right den
      (Nat.add_le_add_left (units_strictMono.monotone outside) (units (infinityRank - 1)))
    have scaled : unitsInOne * (overflowBound * den) ≤ unitsInOne * num := by omega
    exact Nat.le_of_mul_le_mul_left scaled unitsInOne_pos
  · intro large
    rcases Nat.eq_or_lt_of_le large with tie | above
    · have scaled := nearestRank_mul_right (unitsInOne * overflowBound) 1 positive
      rw [Nat.one_mul, nearestRank_overflowBound, Nat.mul_assoc, tie] at scaled
      exact Nat.le_of_eq scaled.symm
    · by_contra inside
      have higher : nearestRank (unitsInOne * num) den < infinityRank := Nat.lt_of_not_le inside
      have nearer := above_nearestRank positive higher
      have below : nearestRank (unitsInOne * num) den ≤ infinityRank - 1 := by omega
      have ordered := Nat.mul_le_mul_right den
        (Nat.add_le_add_right (units_strictMono.monotone below) (units infinityRank))
      rw [Nat.add_comm] at nearer
      have scaled : unitsInOne * (overflowBound * den) < unitsInOne * num :=
        Nat.mul_lt_mul_of_pos_left above unitsInOne_pos
      omega

theorem ofInt?_eq_none_iff (n : Int) : ofInt? n = none ↔ overflowBound ≤ n.natAbs := by
  have reached := infinityRank_le_nearestRank_iff n.natAbs Nat.one_pos
  rw [Nat.mul_one] at reached
  rw [← reached, ofInt?, rounded]
  by_cases inside : nearestRank (unitsInOne * n.natAbs) 1 < infinityRank
  · simp [inside]
  · have outside := Nat.le_of_not_lt inside
    simp [inside, outside]

/-- Less of a float than the whole of it stays in range. -/
theorem nearestRank_product_le {part : Nat} (small : units part ≤ unitsInOne) (rank : Nat) :
    nearestRank (units part * units rank) unitsInOne ≤ rank := by
  apply nearestRank_le unitsInOne_pos
  rw [Nat.mul_comm]
  exact Nat.mul_le_mul_left _ small

end Binary64

namespace Chance

theorem units_le_one (c : Chance) : Binary64.units c.rank ≤ Binary64.unitsInOne := by
  have ordered := Binary64.units_strictMono.monotone c.le_one
  rwa [oneRank, Binary64.units_one] at ordered

theorem scale?_eq_none_iff (c : Chance) (n : Int) :
    c.scale? n = none ↔ Binary64.overflowBound ≤ n.natAbs := by
  rw [← Binary64.ofInt?_eq_none_iff, scale?]
  cases converted : Binary64.ofInt? n with
  | none => simp
  | some x =>
    obtain ⟨negative, rank, rfl⟩ : ∃ negative rank, x = .finite negative rank := by
      unfold Binary64.ofInt? at converted
      split at converted
      · cases converted
        exact ⟨_, _, rfl⟩
      · cases converted
    have inside :=
      Nat.lt_of_le_of_lt (Binary64.nearestRank_product_le c.units_le_one rank.val) rank.isLt
    simp [toBinary64, Binary64.mul, Binary64.rounded, inside, Binary64.floor?]

end Chance

end DrawPile
