import DrawPile.Proofs.Number.Overflow
import Mathlib.Data.Nat.Find

/-! How close the products of chances lie. The multiples of a power of two are floats as far as a
significand counts them, and from one chance to the next a product grows by no more than the last
place of its other factor. So the chances leave out no stretch of whole numbers that is longer than
that place. -/
namespace DrawPile

namespace Binary64

theorem exists_units_eq {multiple : Nat} (doublings : Nat) (bounded : multiple ≤ 2 * binade) :
    ∃ rank, units rank = multiple * 2 ^ doublings := by
  -- A multiple that is too small to be a significand is twice that of half the power.
  induction doublings generalizing multiple with
  | zero => exact ⟨_, units_scaled (.inr rfl) bounded⟩
  | succ doublings ih =>
    rcases Nat.lt_or_ge multiple binade with small | large
    · obtain ⟨rank, same⟩ := @ih (multiple * 2) (by omega)
      refine ⟨rank, ?_⟩
      rw [same, Nat.pow_succ]
      ring
    · exact ⟨_, units_scaled (.inl large) bounded⟩

section Rounding

theorem units_nearestRank_le {num den multiple doublings : Nat} (positive : 0 < den)
    (counted : multiple ≤ 2 * binade) (below : num ≤ multiple * 2 ^ doublings * den) :
    units (nearestRank num den) ≤ multiple * 2 ^ doublings := by
  obtain ⟨rank, same⟩ := exists_units_eq doublings counted
  rw [← same] at below ⊢
  exact units_strictMono.monotone (nearestRank_le positive below)

theorem le_units_nearestRank {num den multiple doublings : Nat} (positive : 0 < den)
    (counted : multiple ≤ 2 * binade) (above : multiple * 2 ^ doublings * den ≤ num) :
    multiple * 2 ^ doublings ≤ units (nearestRank num den) := by
  obtain ⟨rank, same⟩ := exists_units_eq doublings counted
  rw [← same] at above ⊢
  exact units_strictMono.monotone (le_nearestRank positive above)

theorem lt_of_lt_nearestRank {num den rank : Nat} (positive : 0 < den)
    (below : rank < nearestRank num den) :
    units rank * den < num := by
  by_contra above
  have rounded_down := nearestRank_le positive (Nat.le_of_not_lt above)
  omega

end Rounding

theorem units_succ_of_lt_one {rank : Nat} (below : rank < 1023 * binade) :
    ∃ gap, units (rank + 1) = units rank + gap ∧ 2 * binade * gap ≤ unitsInOne := by
  obtain ⟨doublings, significand, rfl, normal, bounded⟩ := exists_scaled rank
  refine ⟨2 ^ doublings, ?_, ?_⟩
  · rw [units_scaled normal (Nat.le_of_lt bounded), units_scaled_succ normal bounded, Nat.succ_mul]
  · have next_power : binade * doublings + 2 * binade ≤ 1023 * binade := by
      have few : doublings ≤ 1021 := by
        by_contra many
        have larger : binade * 1022 ≤ binade * doublings := Nat.mul_le_mul_left _ (by omega)
        omega
      have smaller : binade * doublings ≤ binade * 1021 := Nat.mul_le_mul_left _ few
      omega
    rw [← units_one, ← units_scaled (.inl (by omega)) (Nat.le_refl _)]
    exact units_strictMono.monotone next_power

theorem product_succ_le {top doublings : Nat} (bounded : units top ≤ 2 * binade * 2 ^ doublings)
    {rank : Nat} (below : rank < 1023 * binade) :
    units (rank + 1) * units top ≤ units rank * units top + 2 ^ doublings * unitsInOne := by
  obtain ⟨gap, next, small⟩ := units_succ_of_lt_one below
  calc units (rank + 1) * units top = units rank * units top + gap * units top := by
        rw [next, Nat.add_mul]
    _ ≤ units rank * units top + gap * (2 * binade * 2 ^ doublings) :=
        Nat.add_le_add_left (Nat.mul_le_mul_left _ bounded) _
    _ = units rank * units top + 2 ^ doublings * (2 * binade * gap) := by ring
    _ ≤ units rank * units top + 2 ^ doublings * unitsInOne :=
        Nat.add_le_add_left (Nat.mul_le_mul_left _ small) _

/-- From a multiple of the last place to the next there is a product of some chance. -/
theorem exists_product_between {top doublings : Nat}
    (bounded : units top ≤ 2 * binade * 2 ^ doublings) {multiple : Nat}
    (below : (multiple + 1) * 2 ^ doublings ≤ units top) :
    ∃ c : Chance,
      multiple * 2 ^ doublings ≤ units (nearestRank (units c.rank * units top) unitsInOne) ∧
      units (nearestRank (units c.rank * units top) unitsInOne) ≤
        (multiple + 1) * 2 ^ doublings := by
  have counted : multiple + 1 ≤ 2 * binade :=
    Nat.le_of_mul_le_mul_right (Nat.le_trans below bounded) (Nat.two_pow_pos _)
  have at_one : multiple * 2 ^ doublings ≤
      units (nearestRank (units oneRank * units top) unitsInOne) := by
    apply le_units_nearestRank unitsInOne_pos (Nat.le_of_succ_le counted)
    rw [oneRank, units_one, Nat.mul_comm]
    rw [Nat.succ_mul] at below
    exact Nat.mul_le_mul_left _ (Nat.le_of_add_right_le below)
  -- The first product that is not rounded below the multiple: the one before it lies below.
  have reached : ∃ rank, multiple * 2 ^ doublings ≤
      units (nearestRank (units rank * units top) unitsInOne) := ⟨_, at_one⟩
  obtain ⟨first, arrived, least⟩ : ∃ first,
      multiple * 2 ^ doublings ≤ units (nearestRank (units first * units top) unitsInOne) ∧
        ∀ before < first, ¬ multiple * 2 ^ doublings ≤
          units (nearestRank (units before * units top) unitsInOne) :=
    ⟨Nat.find reached, Nat.find_spec reached, fun _ => Nat.find_min reached⟩
  have first_le : first ≤ oneRank := Nat.le_of_not_lt fun later => least _ later at_one
  refine ⟨⟨first, first_le⟩, arrived, units_nearestRank_le unitsInOne_pos counted ?_⟩
  cases first with
  | zero =>
    have nothing : units 0 = 0 := rfl
    rw [nothing, Nat.zero_mul]
    exact Nat.zero_le _
  | succ before =>
    have lies_below : units before * units top < multiple * 2 ^ doublings * unitsInOne := by
      by_contra above
      exact least before (Nat.lt_succ_self _)
        (le_units_nearestRank unitsInOne_pos (Nat.le_of_succ_le counted) (Nat.le_of_not_lt above))
    apply Nat.le_trans (product_succ_le bounded (Nat.lt_of_succ_le first_le))
    rw [Nat.succ_mul, Nat.add_mul]
    omega

/-- Two neighbouring floats by the significand and the last place of the lower one. -/
theorem exists_last_step {top : Nat} (normal : binade < top) :
    ∃ significand step, binade ≤ significand ∧ 0 < step ∧
      units (top - 1) = significand * step ∧ units top = (significand + 1) * step := by
  obtain ⟨doublings, significand, before, scaled, bounded⟩ := exists_scaled (top - 1)
  have large : binade ≤ significand := by
    rcases scaled with large | none
    · exact large
    · rw [none, Nat.mul_zero, Nat.zero_add] at before
      omega
  have next : top = binade * doublings + significand + 1 := by omega
  refine ⟨significand, 2 ^ doublings, large, Nat.two_pow_pos _, ?_, ?_⟩
  · rw [before]
    exact units_scaled (.inl large) (Nat.le_of_lt bounded)
  · rw [next]
    exact units_scaled_succ (.inl large) bounded

theorem units_below_one {part : Nat} (proper : part < 1023 * binade) :
    2 * binade * units part + unitsInOne ≤ 2 * binade * unitsInOne := by
  have last : 2 * binade * units (1023 * binade - 1) + unitsInOne = 2 * binade * unitsInOne := by
    decide +kernel
  have ordered := units_strictMono.monotone (Nat.le_sub_one_of_lt proper)
  have product := Nat.mul_le_mul_left (2 * binade) ordered
  omega

theorem nearestRank_product_lt {top part : Nat} (proper : part < 1023 * binade)
    (normal : binade < top) : nearestRank (units part * units top) unitsInOne < top := by
  -- Otherwise the product would reach the middle between the float and the one before it.
  by_contra reached
  have rounded_up := units_strictMono.monotone (Nat.le_of_not_lt reached)
  have higher : top - 1 < nearestRank (units part * units top) unitsInOne := by omega
  have middle : (units (top - 1) + units top) * unitsInOne ≤ 2 * (units part * units top) :=
    Nat.le_trans (Nat.mul_le_mul_right _ (Nat.add_le_add_left rounded_up _))
      (below_nearestRank higher)
  obtain ⟨significand, step, large, step_pos, at_before, at_top⟩ := exists_last_step normal
  rw [at_before, at_top] at middle
  have without_step : (2 * significand + 1) * unitsInOne ≤ 2 * (significand + 1) * units part := by
    apply Nat.le_of_mul_le_mul_right _ step_pos
    linarith
  have away := Nat.mul_le_mul_left (2 * (significand + 1)) (units_below_one proper)
  have near := Nat.mul_le_mul_left (2 * binade) without_step
  have small : (significand + 1) * unitsInOne ≤ binade * unitsInOne := by linarith
  have bound := Nat.le_of_mul_le_mul_right small unitsInOne_pos
  omega

theorem exists_multiple (n : Nat) {step : Nat} (positive : 0 < step) :
    ∃ multiple, n ≤ multiple * step ∧ multiple * step < n + step := by
  have split := Nat.div_add_mod (n + step - 1) step
  have inside := Nat.mod_lt (n + step - 1) positive
  refine ⟨(n + step - 1) / step, ?_, ?_⟩ <;> rw [Nat.mul_comm] <;> omega

theorem exists_half_power {n : Nat} (large : 2 ≤ n) : ∃ k, 2 * 2 ^ k ≤ n ∧ n < 4 * 2 ^ k := by
  have nonzero : n ≠ 0 := by omega
  have below := Nat.log2_self_le nonzero
  have above : n < 2 ^ (Nat.log2 n + 1) := Nat.lt_log2_self
  have first : 1 ≤ Nat.log2 n := (Nat.le_log2 nonzero).2 large
  obtain ⟨k, same⟩ : ∃ k, Nat.log2 n = k + 1 := ⟨Nat.log2 n - 1, by omega⟩
  rw [same] at below above
  refine ⟨k, ?_, ?_⟩
  · rwa [Nat.mul_comm, ← Nat.pow_succ]
  · calc n < 2 ^ (k + 1 + 1) := above
      _ = 4 * 2 ^ k := by ring

end Binary64

namespace Chance
open Binary64

theorem scale?_natCast (c : Chance) {n : Nat} (small : n < overflowBound) :
    c.scale? n = some ((units (nearestRank (units c.rank *
      units (nearestRank (unitsInOne * n) 1)) unitsInOne) / unitsInOne : Nat) : Int) := by
  have finite : nearestRank (unitsInOne * n) 1 < infinityRank := by
    have reached := infinityRank_le_nearestRank_iff n Nat.one_pos
    omega
  have product := Nat.lt_of_le_of_lt (nearestRank_product_le c.units_le_one _) finite
  have positive : ¬ (n : Int) < 0 := by omega
  have converted : ofInt? n = some (.finite false ⟨_, finite⟩) := by
    simp only [ofInt?, rounded, Int.natAbs_natCast, dif_pos finite, decide_eq_false positive]
  rw [scale?, converted]
  simp only [Option.bind_some, toBinary64, mul, rounded, dif_pos product, floor?, signedUnits,
    bne_self_eq_false, Bool.false_eq_true, if_false, Int.natCast_ediv]

theorem scale?_zero (c : Chance) : c.scale? 0 = some 0 := by
  have nothing : nearestRank (unitsInOne * 0) 1 = 0 :=
    nearestRank_eq_zero (by decide)
  have product : nearestRank (units c.rank * units 0)
      unitsInOne = 0 :=
    Nat.le_zero.1 (nearestRank_product_le c.units_le_one 0)
  have scaled := c.scale?_natCast (show 0 < overflowBound by decide +kernel)
  rw [nothing, product] at scaled
  exact scaled

/-- A chance below one scales a whole number to one below it, also where the number is rounded up to
a float. -/
theorem exists_scale?_lt (c : Chance) (proper : c.rank < oneRank) {n : Nat} (positive : 0 < n)
    (small : n < overflowBound) : ∃ m < n, c.scale? n = some (m : Int) := by
  have at_least_one : 1023 * binade ≤ nearestRank (unitsInOne * n) 1 := by
    apply le_nearestRank Nat.one_pos
    rw [units_one, Nat.mul_one]
    exact Nat.le_mul_of_pos_right _ positive
  have normal : binade < nearestRank (unitsInOne * n) 1 :=
    Nat.lt_of_lt_of_le (by decide) at_least_one
  have product_lt := nearestRank_product_lt proper normal
  have exact_lt := lt_of_lt_nearestRank Nat.one_pos product_lt
  rw [Nat.mul_one] at exact_lt
  refine ⟨_, ?_, c.scale?_natCast small⟩
  rw [Nat.div_lt_iff_lt_mul unitsInOne_pos, Nat.mul_comm n]
  exact exact_lt

/-- Some chance scales a total to a place of a stretch of places, unless the stretch is shorter than
a part in 2^51 of the total. -/
theorem exists_scale?_within {total place weight : Nat} (positive : 0 < weight)
    (inside : place + weight ≤ total) (small : total < overflowBound)
    (heavy : total ≤ 2 ^ 51 * weight) :
    ∃ (c : Chance) (n : Nat), c.scale? total = some (n : Int) ∧ place ≤ n ∧
      n < place + weight := by
  have one_pos := unitsInOne_pos
  have room : 2 ≤ unitsInOne * weight :=
    Nat.le_trans (by decide +kernel) (Nat.le_mul_of_pos_right _ positive)
  obtain ⟨doublings, fits, close⟩ := exists_half_power room
  obtain ⟨multiple, above, next⟩ := exists_multiple (unitsInOne * place) (Nat.two_pow_pos doublings)
  have stretch : unitsInOne * (place + weight) = unitsInOne * place + unitsInOne * weight :=
    Nat.mul_add _ _ _
  have ends : (multiple + 1) * 2 ^ doublings < unitsInOne * (place + weight) := by
    rw [Nat.succ_mul]
    omega
  have whole : unitsInOne * (place + weight) ≤ unitsInOne * total := Nat.mul_le_mul_left _ inside
  have capped : unitsInOne * total ≤ 2 * binade * 2 ^ doublings := by
    calc unitsInOne * total ≤ unitsInOne * (2 ^ 51 * weight) := Nat.mul_le_mul_left _ heavy
      _ = 2 ^ 51 * (unitsInOne * weight) := by ring
      _ ≤ 2 ^ 51 * (4 * 2 ^ doublings) := Nat.mul_le_mul_left _ (Nat.le_of_lt close)
      _ = 2 * binade * 2 ^ doublings := by
          rw [← Nat.mul_assoc]
          rfl
  have bounded : units (nearestRank (unitsInOne * total) 1) ≤ 2 * binade * 2 ^ doublings := by
    apply units_nearestRank_le Nat.one_pos (Nat.le_refl _)
    rwa [Nat.mul_one]
  have below : (multiple + 1) * 2 ^ doublings ≤ units (nearestRank (unitsInOne * total) 1) := by
    have counted : multiple + 1 ≤ 2 * binade :=
      Nat.le_of_mul_le_mul_right (by omega) (Nat.two_pow_pos doublings)
    apply le_units_nearestRank Nat.one_pos counted
    omega
  obtain ⟨c, low, high⟩ := exists_product_between bounded below
  refine ⟨c, _, c.scale?_natCast small, ?_, ?_⟩
  · rw [Nat.le_div_iff_mul_le one_pos, Nat.mul_comm]
    omega
  · rw [Nat.div_lt_iff_lt_mul one_pos, Nat.mul_comm (place + weight)]
    omega

end Chance

end DrawPile
