import DrawPile.Proofs.Number.Spacing
import Mathlib.Data.Rat.Floor

/-! Half of one added to a float. The exact sum is rounded before it is cut down to a whole number.
Below 2^52 the cut undoes the rounding, and from 2^53 on the half is lost in it; in between the floats
are the whole numbers, the sum is a tie, and it goes up for the odd ones. -/
namespace DrawPile.Binary64
variable {doublings significand : Nat}

def halfInUnits : Nat := units (1022 * binade)

theorem halfInUnits_eq : halfInUnits = 2 ^ 1073 := by decide +kernel

theorem unitsInOne_eq : unitsInOne = 2 ^ 1074 := by decide +kernel

theorem two_pow_le_halfInUnits {k : Nat} (small : k ≤ 1073) : 2 ^ k ≤ halfInUnits := by
  -- Said of any exponent: a literal power of this size is not to be evaluated.
  have grows (n : Nat) (le : k ≤ n) : 2 ^ k ≤ 2 ^ n := Nat.pow_le_pow_right (by decide) le
  rw [halfInUnits_eq]
  exact grows _ small

theorem unitsInOne_mul_two_pow (k : Nat) : unitsInOne * 2 ^ k = 2 ^ (1074 + k) := by
  rw [unitsInOne_eq, Nat.pow_add]

theorem two_mul_halfInUnits : 2 * halfInUnits = unitsInOne := by decide +kernel

theorem two_binade_eq : 2 * binade = 2 ^ 53 := by decide

/-- From 2^53 on the half is lost. -/
theorem nearestRank_add_half_large (normal : binade ≤ significand) (bounded : significand < 2 * binade)
    (many : 1074 < doublings) :
    nearestRank (significand * 2 ^ doublings + halfInUnits) 1 = binade * doublings + significand := by
  have here : units (binade * doublings + significand) = _ :=
    units_scaled (.inl normal) (Nat.le_of_lt bounded)
  have next : units (binade * doublings + significand + 1) = _ :=
    units_scaled_succ (.inl normal) bounded
  apply Nat.le_antisymm
  · by_contra higher
    have lower := Nat.lt_of_not_le higher
    have nearer := below_nearestRank lower
    have reached := units_strictMono.monotone (Nat.succ_le_of_lt lower)
    have step : 2 * unitsInOne ≤ 2 ^ doublings := by
      obtain ⟨k, rfl⟩ : ∃ k, doublings = 1074 + (k + 1) := ⟨doublings - 1075, by omega⟩
      calc 2 * unitsInOne = unitsInOne * 2 := Nat.mul_comm _ _
        _ ≤ unitsInOne * (2 ^ k * 2) :=
            Nat.mul_le_mul_left _ (Nat.le_mul_of_pos_left 2 (Nat.two_pow_pos k))
        _ = 2 ^ (1074 + (k + 1)) := by rw [← Nat.pow_succ, unitsInOne_mul_two_pow]
    have half := two_mul_halfInUnits
    have positive := unitsInOne_pos
    rw [Nat.succ_eq_add_one, next, Nat.add_mul, Nat.one_mul] at reached
    rw [here, Nat.mul_one] at nearer
    omega
  · apply le_nearestRank Nat.one_pos
    rw [here, Nat.mul_one]
    exact Nat.le_add_right _ _

/-- From 2^52 to 2^53 the sum is a tie, and it goes to the even number. -/
theorem units_nearestRank_tie {n : Nat} (normal : binade ≤ n) (bounded : n < 2 * binade) :
    units (nearestRank (n * unitsInOne + halfInUnits) 1) = (n + n % 2) * unitsInOne := by
  have positive := unitsInOne_pos
  have half := two_mul_halfInUnits
  have power : 1 * 2 ^ 1074 = unitsInOne := (Nat.one_mul _).trans unitsInOne_eq.symm
  have quotient : (n * unitsInOne + halfInUnits) / unitsInOne = n := by
    apply Nat.div_eq_of_lt_le (Nat.le_add_right _ _)
    rw [Nat.add_mul]
    omega
  have rest : (n * unitsInOne + halfInUnits) % unitsInOne = halfInUnits := by
    rw [Nat.mul_add_mod_self_right]
    exact Nat.mod_eq_of_lt (by omega)
  have at_tie : roundHalfEven (n * unitsInOne + halfInUnits) unitsInOne = n + n % 2 := by
    have middle : ¬ unitsInOne < unitsInOne := Nat.lt_irrefl _
    simp only [roundHalfEven, quotient, rest, half, if_neg middle]
  have rank : nearestRank (n * unitsInOne + halfInUnits) 1 = binade * 1074 + (n + n % 2) := by
    rw [nearestRank_of_length Nat.one_pos, power, at_tie] <;> rw [power, quotient]
    · exact normal
    · exact bounded
  have top : n + n % 2 ≤ 2 * binade := by
    have even : 2 * binade % 2 = 0 := by decide
    omega
  rw [rank, unitsInOne_eq]
  exact units_scaled (.inl (Nat.le_add_right_of_le normal)) top

theorem add_half_scaled (few : doublings ≤ 1073) :
    (significand + 2 ^ (1073 - doublings)) * 2 ^ doublings =
      significand * 2 ^ doublings + halfInUnits := by
  rw [Nat.add_mul, pow_sub_mul_pow 2 few, halfInUnits_eq]

theorem units_nearestRank_add_half_le (few : doublings ≤ 1073)
    (fits : significand + 2 ^ (1073 - doublings) ≤ 2 * binade) :
    units (nearestRank (significand * 2 ^ doublings + halfInUnits) 1) ≤
      significand * 2 ^ doublings + halfInUnits := by
  rw [← add_half_scaled few]
  exact units_nearestRank_le Nat.one_pos fits (Nat.le_of_eq (Nat.mul_one _).symm)

/-- If it is none, then a power of two that is a whole number lies between it and the other float. -/
theorem lt_floor_of_long (bounded : significand < 2 * binade) (few : doublings ≤ 1073)
    (above : halfInUnits ≤ significand * 2 ^ doublings)
    (long : 2 * binade < significand + 2 ^ (1073 - doublings)) :
    significand * 2 ^ doublings <
      (significand * 2 ^ doublings + halfInUnits) / unitsInOne * unitsInOne := by
  have power : 2 * binade * 2 ^ doublings = 2 ^ (53 + doublings) := by
    rw [two_binade_eq, Nat.pow_add]
  have below : significand * 2 ^ doublings < 2 * binade * 2 ^ doublings :=
    Nat.mul_lt_mul_of_pos_right bounded (Nat.two_pow_pos _)
  have many : 1073 < 53 + doublings := by
    by_contra short
    have smaller := two_pow_le_halfInUnits (Nat.le_of_not_lt short)
    omega
  have whole : 2 * binade * 2 ^ doublings = 2 ^ (doublings - 1021) * unitsInOne := by
    have exponent : 53 + doublings = 1074 + (doublings - 1021) := by omega
    rw [power, Nat.mul_comm, unitsInOne_mul_two_pow, exponent]
  have reached : 2 * binade * 2 ^ doublings ≤ significand * 2 ^ doublings + halfInUnits := by
    rw [← add_half_scaled few]
    exact Nat.mul_le_mul_right _ (Nat.le_of_lt long)
  rw [whole] at reached below
  have counted := (Nat.le_div_iff_mul_le unitsInOne_pos).2 reached
  exact Nat.lt_of_lt_of_le below (Nat.mul_le_mul_right _ counted)

theorem two_pow_mul_scaled_le (bounded : significand < 2 * binade) {k : Nat}
    (few : doublings + k ≤ 1073) :
    2 ^ k * (significand * 2 ^ doublings) ≤ binade * unitsInOne := by
  calc 2 ^ k * (significand * 2 ^ doublings) = significand * 2 ^ (doublings + k) := by ring
    _ ≤ 2 * binade * halfInUnits :=
        Nat.mul_le_mul (Nat.le_of_lt bounded) (two_pow_le_halfInUnits few)
    _ = binade * unitsInOne := by
        rw [← two_mul_halfInUnits]
        ring

theorem floor_add_half_le (bounded : significand < 2 * binade) (few : doublings ≤ 1073) :
    (significand * 2 ^ doublings + halfInUnits) / unitsInOne ≤ binade := by
  have half := two_mul_halfInUnits
  have positive := unitsInOne_pos
  have small := @two_pow_mul_scaled_le doublings _ bounded 0 few
  apply Nat.le_of_lt_succ
  rw [Nat.div_lt_iff_lt_mul positive, Nat.succ_mul]
  omega

theorem floor_add_half_lt (bounded : significand < 2 * binade) (few : doublings < 1073) :
    (significand * 2 ^ doublings + halfInUnits) / unitsInOne < binade := by
  have half := two_mul_halfInUnits
  have positive := unitsInOne_pos
  have small := @two_pow_mul_scaled_le doublings _ bounded 1 few
  have room : 2 * unitsInOne ≤ binade * unitsInOne := Nat.mul_le_mul_right _ (by decide)
  rw [Nat.div_lt_iff_lt_mul positive]
  omega

/-- Below 2^52 the sum is cut down to the same whole number as before it was rounded. -/
theorem floor_nearestRank_add_half_small (bounded : significand < 2 * binade)
    (few : doublings ≤ 1073) (above : halfInUnits ≤ significand * 2 ^ doublings) :
    units (nearestRank (significand * 2 ^ doublings + halfInUnits) 1) / unitsInOne =
      (significand * 2 ^ doublings + halfInUnits) / unitsInOne := by
  have half := two_mul_halfInUnits
  have positive := unitsInOne_pos
  have counted := floor_add_half_le bounded few
  have cut := Nat.div_mul_le_self (significand * 2 ^ doublings + halfInUnits) unitsInOne
  have next := @Nat.lt_div_mul_add (significand * 2 ^ doublings + halfInUnits) _ positive
  apply Nat.div_eq_of_lt_le
  · have kept := @le_units_nearestRank (significand * 2 ^ doublings + halfInUnits) 1 _ 1074
      Nat.one_pos (Nat.le_trans counted (Nat.le_mul_of_pos_left _ (by decide)))
    rw [Nat.mul_one, ← unitsInOne_eq] at kept
    exact kept cut
  · rw [Nat.add_mul, Nat.one_mul]
    rcases Nat.lt_or_ge (2 * binade) (significand + 2 ^ (1073 - doublings)) with long | fits
    · -- The middle between the whole number and the next is a float, and is not below the sum.
      have lower := lt_floor_of_long bounded few above long
      have few' : doublings < 1073 := by
        apply Nat.lt_of_le_of_ne few
        rintro rfl
        rw [Nat.sub_self, Nat.pow_zero] at long
        omega
      have short := floor_add_half_lt bounded few'
      generalize (significand * 2 ^ doublings + halfInUnits) / unitsInOne = whole at *
      have middle : (2 * whole + 1) * halfInUnits = whole * unitsInOne + halfInUnits := by
        rw [← half]
        ring
      have capped := @units_nearestRank_le (significand * 2 ^ doublings + halfInUnits) 1
        (2 * whole + 1) 1073 Nat.one_pos (by omega)
      rw [Nat.mul_one, ← halfInUnits_eq, middle] at capped
      have under := capped (by omega)
      omega
    · have exactly := units_nearestRank_add_half_le few fits
      omega

/-- The odd whole numbers from 2^52 to 2^53. -/
def OddBetween (n : Int) : Prop := n % 2 = 1 ∧ binade < n ∧ n < 2 * binade

instance (n : Int) : Decidable (OddBetween n) :=
  inferInstanceAs (Decidable (n % 2 = 1 ∧ (binade : Int) < n ∧ n < 2 * binade))

/-- For a float of at least a half, the rounded sum has the same floor as the exact one, unless the float
is one of these numbers. -/
theorem floor_nearestRank_add_half {rank : Nat} (above : halfInUnits ≤ units rank)
    (other : ∀ n : Nat, units rank = n * unitsInOne → ¬ OddBetween n) :
    units (nearestRank (units rank + halfInUnits) 1) / unitsInOne =
      (units rank + halfInUnits) / unitsInOne := by
  have positive := unitsInOne_pos
  have half := two_mul_halfInUnits
  obtain ⟨doublings, significand, rfl, normal, bounded⟩ := exists_scaled rank
  have scaled := units_scaled normal (Nat.le_of_lt bounded)
  rw [scaled] at above other ⊢
  rcases Nat.lt_trichotomy doublings 1074 with few | rfl | many
  · exact floor_nearestRank_add_half_small bounded (Nat.le_of_lt_succ few) above
  · have normal : binade ≤ significand := normal.resolve_right (by decide)
    rw [← unitsInOne_eq] at other ⊢
    have even : significand % 2 = 0 := by
      have not_odd := other significand rfl
      have binade_even : binade % 2 = 0 := by decide
      unfold OddBetween at not_odd
      omega
    have whole : halfInUnits / unitsInOne = 0 := Nat.div_eq_of_lt (by omega)
    rw [units_nearestRank_tie normal bounded, even, Nat.add_zero, Nat.mul_comm,
      Nat.mul_add_div positive, whole, Nat.mul_div_cancel_left _ positive, Nat.add_zero]
  · have normal : binade ≤ significand := normal.resolve_right (by omega)
    rw [nearestRank_add_half_large normal bounded many, scaled]
    obtain ⟨k, rfl⟩ : ∃ k, doublings = 1074 + k := ⟨doublings - 1074, by omega⟩
    have whole : halfInUnits / unitsInOne = 0 := Nat.div_eq_of_lt (by omega)
    rw [← unitsInOne_mul_two_pow, Nat.mul_left_comm, Nat.mul_add_div positive, whole,
      Nat.mul_div_cancel_left _ positive, Nat.add_zero]

theorem floor_nearestRank_add_half_odd {rank n : Nat} (odd : OddBetween n)
    (same : units rank = n * unitsInOne) :
    units (nearestRank (units rank + halfInUnits) 1) / unitsInOne = n + 1 := by
  obtain ⟨odd, above, below⟩ := odd
  have rest : n % 2 = 1 := by omega
  rw [same, units_nearestRank_tie (by omega) (by omega), rest, Nat.mul_div_cancel _ unitsInOne_pos]

/-- Half of one does not bring a float out of range. -/
theorem nearestRank_add_half_lt {rank : Nat} (finite : rank < infinityRank) :
    nearestRank (units rank + halfInUnits) 1 < infinityRank := by
  have top : infinityRank - 1 = binade * 2045 + (2 * binade - 1) := by decide
  have last := @nearestRank_add_half_large 2045 (2 * binade - 1) (by decide) (by decide) (by decide)
  have at_top := @units_scaled 2045 (2 * binade - 1) (.inl (by decide)) (by decide)
  rw [← at_top, ← top] at last
  have below := units_strictMono.monotone (Nat.le_sub_one_of_lt finite)
  have ordered := @nearestRank_mono _ _ 1 Nat.one_pos (Nat.add_le_add_right below halfInUnits)
  have positive : 0 < infinityRank := by decide
  omega

theorem floor_nearestRank_le_one {num : Nat} (small : num ≤ unitsInOne) :
    units (nearestRank num 1) / unitsInOne ≤ 1 := by
  have below : nearestRank num 1 ≤ 1023 * binade := by
    apply nearestRank_le Nat.one_pos
    rw [units_one, Nat.mul_one]
    exact small
  have at_most := units_strictMono.monotone below
  rw [units_one] at at_most
  exact Nat.div_le_of_le_mul (by rwa [Nat.mul_one])

theorem floor_toRat_add_half (negative : Bool) (rank : Nat) :
    ⌊toRat negative rank + 1 / 2⌋ = (signedUnits negative rank + halfInUnits) / (unitsInOne : Int) := by
  have one_pos : (unitsInOne : ℚ) ≠ 0 := Nat.cast_ne_zero.2 unitsInOne_pos.ne'
  have half : (unitsInOne : ℚ) = 2 * halfInUnits := by exact_mod_cast two_mul_halfInUnits.symm
  have sum : toRat negative rank + 1 / 2 =
      ((signedUnits negative rank + halfInUnits : Int) : ℚ) / unitsInOne := by
    rw [eq_div_iff one_pos, add_mul, toRat, div_mul_cancel₀ _ one_pos, half]
    push_cast
    ring
  rw [sum, Rat.floor_intCast_div_natCast]

end DrawPile.Binary64
