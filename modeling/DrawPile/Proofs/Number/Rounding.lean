import DrawPile.Number.Binary64
import Mathlib.Algebra.Order.Field.Rat
import Mathlib.Algebra.Order.Field.Basic
import Mathlib.Order.Monotone.Basic
import Mathlib.Tactic.Linarith
import Mathlib.Tactic.Ring

/-! Rounding to the nearest float. A rank is a number of doublings and a significand, and its units
grow with it; the rank that a quotient is rounded to lies on the near side of the middle between
any two, so no other float is nearer. -/
namespace DrawPile.Binary64

theorem binade_pos : 0 < binade := by decide

/-- The units of a rank by its doublings and its significand. A significand may be the first of the
next binade. -/
theorem units_scaled {doublings significand : Nat} (normal : binade ≤ significand ∨ doublings = 0)
    (bounded : significand ≤ 2 * binade) :
    units (binade * doublings + significand) = significand * 2 ^ doublings := by
  have positive := binade_pos
  by_cases small : significand < binade
  · obtain rfl : doublings = 0 := normal.resolve_left (Nat.not_le_of_lt small)
    rw [Nat.mul_zero, Nat.zero_add, units, if_pos small, Nat.pow_zero, Nat.mul_one]
  · obtain ⟨fraction, rfl⟩ : ∃ k, significand = binade + k := ⟨significand - binade, by omega⟩
    have whole : binade * doublings + (binade + fraction) = binade * (doublings + 1) + fraction := by
      rw [Nat.mul_succ, Nat.add_assoc]
    have large : ¬ binade * (doublings + 1) + fraction < binade := by
      rw [Nat.mul_succ]
      omega
    rw [whole, units, if_neg large, Nat.mul_add_mod, Nat.mul_add_div positive,
      Nat.shiftLeft_eq]
    rcases Nat.lt_or_ge fraction binade with inside | top
    · rw [Nat.mod_eq_of_lt inside, Nat.div_eq_of_lt inside, Nat.add_zero, Nat.add_sub_cancel]
    · obtain rfl : fraction = binade := by omega
      rw [Nat.mod_self, Nat.div_self positive, Nat.add_sub_cancel, Nat.pow_succ, Nat.add_zero]
      ring

theorem exists_scaled (rank : Nat) :
    ∃ doublings significand, rank = binade * doublings + significand ∧
      (binade ≤ significand ∨ doublings = 0) ∧ significand < 2 * binade := by
  rcases Nat.lt_or_ge rank binade with small | large
  · exact ⟨0, rank, by omega, .inr rfl, by omega⟩
  · have split := Nat.div_add_mod rank binade
    have inside := Nat.mod_lt rank binade_pos
    have first : 1 ≤ rank / binade := (Nat.one_le_div_iff binade_pos).2 large
    obtain ⟨doublings, same⟩ : ∃ k, rank / binade = k + 1 := ⟨rank / binade - 1, by omega⟩
    refine ⟨doublings, binade + rank % binade, ?_, .inl (Nat.le_add_right _ _), by omega⟩
    rw [same, Nat.mul_succ] at split
    omega

theorem units_scaled_succ {doublings significand : Nat}
    (normal : binade ≤ significand ∨ doublings = 0) (bounded : significand < 2 * binade) :
    units (binade * doublings + significand + 1) = (significand + 1) * 2 ^ doublings := by
  rw [Nat.add_assoc]
  exact units_scaled (normal.imp_left Nat.le_succ_of_le) bounded

theorem units_strictMono : StrictMono units := by
  apply strictMono_nat_of_lt_succ
  intro rank
  obtain ⟨doublings, significand, rfl, normal, bounded⟩ := exists_scaled rank
  rw [units_scaled normal (Nat.le_of_lt bounded), units_scaled_succ normal bounded]
  exact Nat.mul_lt_mul_of_pos_right (Nat.lt_succ_self _) (Nat.two_pow_pos _)

theorem roundHalfEven_cases (num den : Nat) :
    (roundHalfEven num den = num / den ∧ 2 * (num % den) ≤ den) ∨
      roundHalfEven num den = num / den + 1 ∧ den ≤ 2 * (num % den) := by
  unfold roundHalfEven
  simp only
  split_ifs <;> omega

/- Enough doublings are made for the significand to have its full length, and no more. -/
theorem nearestRank_eq (num den : Nat) :
    ∃ doublings, nearestRank num den =
        binade * doublings + roundHalfEven num (den * 2 ^ doublings) ∧
      (binade ≤ num / (den * 2 ^ doublings) ∨ doublings = 0) ∧
      num / (den * 2 ^ doublings) < 2 * binade := by
  have size : binade = 2 ^ 52 := by decide
  refine ⟨Nat.log2 (num / den) - 52, ?_, ?_⟩
  · unfold nearestRank
    simp only [Nat.shiftLeft_eq]
  · rw [← Nat.div_div_eq_div_mul]
    generalize num / den = n
    have above : n < 2 ^ (Nat.log2 n + 1) := Nat.lt_log2_self
    rcases Nat.le_total (Nat.log2 n) 52 with short | long
    · have bounded : n < 2 * binade := by
        calc n < 2 ^ (Nat.log2 n + 1) := above
          _ ≤ 2 ^ 53 := Nat.pow_le_pow_right (by decide) (by omega)
          _ = 2 * binade := by decide
      rw [Nat.sub_eq_zero_of_le short, Nat.pow_zero, Nat.div_one]
      exact ⟨.inr rfl, bounded⟩
    · obtain ⟨doublings, same⟩ : ∃ k, Nat.log2 n = 52 + k := ⟨Nat.log2 n - 52, by omega⟩
      have nonzero : n ≠ 0 := by
        rintro rfl
        simp at long
      have below : 2 ^ Nat.log2 n ≤ n := Nat.log2_self_le nonzero
      rw [same, Nat.add_sub_cancel_left]
      rw [same] at above below
      constructor
      · left
        rw [Nat.le_div_iff_mul_le (Nat.two_pow_pos _), size, ← Nat.pow_add]
        exact below
      · rw [Nat.div_lt_iff_lt_mul (Nat.two_pow_pos _), size]
        calc n < 2 ^ (52 + doublings + 1) := above
          _ = 2 * 2 ^ 52 * 2 ^ doublings := by ring

theorem two_mul_div_le {num den doublings k : Nat} (positive : 0 < den) (less : k < doublings) :
    2 * (num / (den * 2 ^ doublings)) ≤ num / (den * 2 ^ k) := by
  have next : den * 2 ^ k * 2 ≤ den * 2 ^ doublings := by
    rw [Nat.mul_assoc, ← Nat.pow_succ]
    exact Nat.mul_le_mul_left _ (Nat.pow_le_pow_right (by decide) less)
  have nonzero : 0 < den * 2 ^ k * 2 := by
    have power := Nat.mul_pos positive (Nat.two_pow_pos k)
    omega
  have smaller : num / (den * 2 ^ doublings) ≤ num / (den * 2 ^ k * 2) :=
    Nat.div_le_div_left next nonzero
  rw [← Nat.div_div_eq_div_mul num (den * 2 ^ k) 2] at smaller
  omega

/-- The rounding takes place at the power of two that gives the quotient its full length. -/
theorem nearestRank_of_length {num den doublings : Nat} (positive : 0 < den)
    (large : binade ≤ num / (den * 2 ^ doublings))
    (bounded : num / (den * 2 ^ doublings) < 2 * binade) :
    nearestRank num den = binade * doublings + roundHalfEven num (den * 2 ^ doublings) := by
  obtain ⟨k, same, normal, inside⟩ := nearestRank_eq num den
  rcases Nat.lt_trichotomy k doublings with less | rfl | more
  · have twice : 2 * (num / (den * 2 ^ doublings)) ≤ _ := two_mul_div_le positive less
    omega
  · exact same
  · have twice : 2 * (num / (den * 2 ^ k)) ≤ _ := two_mul_div_le positive more
    rcases normal with normal | none <;> omega

/-- A rank below the one that is rounded to lies below the exact quotient, and farther from it. -/
theorem below_nearestRank {num den rank : Nat} (lower : rank < nearestRank num den) :
    (units rank + units (nearestRank num den)) * den ≤ 2 * num := by
  obtain ⟨doublings, same, normal, bounded⟩ := nearestRank_eq num den
  have split := Nat.div_add_mod num (den * 2 ^ doublings)
  rw [same] at lower ⊢
  -- Rounded down, neither rank is above the quotient; rounded up, the lower one is a whole step
  -- away and the remainder is at least half a step.
  rcases roundHalfEven_cases num (den * 2 ^ doublings) with ⟨down, half⟩ | ⟨up, half⟩
  · have smaller := units_strictMono.monotone (Nat.le_of_lt lower)
    rw [down, units_scaled normal (Nat.le_of_lt bounded)] at *
    generalize num / (den * 2 ^ doublings) = quotient at *
    calc (units rank + quotient * 2 ^ doublings) * den
        ≤ (quotient * 2 ^ doublings + quotient * 2 ^ doublings) * den :=
          Nat.mul_le_mul_right _ (Nat.add_le_add_right smaller _)
      _ = 2 * (den * 2 ^ doublings * quotient) := by ring
      _ ≤ 2 * num := by omega
  · rw [up] at lower ⊢
    have smaller : units rank ≤ num / (den * 2 ^ doublings) * 2 ^ doublings := by
      rw [← units_scaled normal (Nat.le_of_lt bounded)]
      exact units_strictMono.monotone (by omega)
    rw [units_scaled (normal.imp_left Nat.le_succ_of_le) bounded]
    generalize num / (den * 2 ^ doublings) = quotient at *
    calc (units rank + (quotient + 1) * 2 ^ doublings) * den
        ≤ (quotient * 2 ^ doublings + (quotient + 1) * 2 ^ doublings) * den :=
          Nat.mul_le_mul_right _ (Nat.add_le_add_right smaller _)
      _ = 2 * (den * 2 ^ doublings * quotient) + den * 2 ^ doublings := by ring
      _ ≤ 2 * num := by omega

/-- A rank above the one that is rounded to lies above the exact quotient, and farther from it. -/
theorem above_nearestRank {num den rank : Nat} (positive : 0 < den)
    (higher : nearestRank num den < rank) :
    2 * num ≤ (units rank + units (nearestRank num den)) * den := by
  obtain ⟨doublings, same, normal, bounded⟩ := nearestRank_eq num den
  have split := Nat.div_add_mod num (den * 2 ^ doublings)
  have inside : num % (den * 2 ^ doublings) < den * 2 ^ doublings :=
    Nat.mod_lt _ (Nat.mul_pos positive (Nat.two_pow_pos _))
  have next : units (binade * doublings + (num / (den * 2 ^ doublings) + 1)) =
      (num / (den * 2 ^ doublings) + 1) * 2 ^ doublings :=
    units_scaled (normal.imp_left Nat.le_succ_of_le) bounded
  rw [same] at higher ⊢
  rcases roundHalfEven_cases num (den * 2 ^ doublings) with ⟨down, half⟩ | ⟨up, half⟩
  · rw [down] at higher ⊢
    have larger : (num / (den * 2 ^ doublings) + 1) * 2 ^ doublings ≤ units rank := by
      rw [← next]
      exact units_strictMono.monotone (by omega)
    rw [units_scaled normal (Nat.le_of_lt bounded)]
    generalize num / (den * 2 ^ doublings) = quotient at *
    calc 2 * num ≤ 2 * (den * 2 ^ doublings * quotient) + den * 2 ^ doublings := by omega
      _ = ((quotient + 1) * 2 ^ doublings + quotient * 2 ^ doublings) * den := by ring
      _ ≤ (units rank + quotient * 2 ^ doublings) * den :=
          Nat.mul_le_mul_right _ (Nat.add_le_add_right larger _)
  · rw [up] at higher ⊢
    have larger := units_strictMono.monotone (Nat.le_of_lt higher)
    rw [next] at larger ⊢
    generalize num / (den * 2 ^ doublings) = quotient at *
    calc 2 * num ≤ 2 * (den * 2 ^ doublings * quotient) + 2 * (den * 2 ^ doublings) := by omega
      _ = ((quotient + 1) * 2 ^ doublings + (quotient + 1) * 2 ^ doublings) * den := by ring
      _ ≤ (units rank + (quotient + 1) * 2 ^ doublings) * den :=
          Nat.mul_le_mul_right _ (Nat.add_le_add_right larger _)

theorem nearestRank_le {num den rank : Nat} (positive : 0 < den) (below : num ≤ units rank * den) :
    nearestRank num den ≤ rank := by
  by_contra above
  have higher : rank < nearestRank num den := Nat.lt_of_not_le above
  have nearer := below_nearestRank higher
  have larger := Nat.mul_lt_mul_of_pos_right (units_strictMono higher) positive
  rw [Nat.add_mul] at nearer
  omega

theorem le_nearestRank {num den rank : Nat} (positive : 0 < den) (above : units rank * den ≤ num) :
    rank ≤ nearestRank num den := by
  by_contra below
  have lower : nearestRank num den < rank := Nat.lt_of_not_le below
  have nearer := above_nearestRank positive lower
  have smaller := Nat.mul_lt_mul_of_pos_right (units_strictMono lower) positive
  rw [Nat.add_mul] at nearer
  omega

theorem nearestRank_mono {num num' den : Nat} (positive : 0 < den) (less : num ≤ num') :
    nearestRank num den ≤ nearestRank num' den := by
  by_contra crossed
  have lower : nearestRank num' den < nearestRank num den := Nat.lt_of_not_le crossed
  have below := below_nearestRank lower
  have above := above_nearestRank positive lower
  rw [Nat.add_comm] at above
  -- Both would be rounded from the middle between the two ranks.
  have same : num = num' := by omega
  rw [same] at lower
  exact Nat.lt_irrefl _ lower

theorem nearestRank_eq_zero {num den : Nat} (small : 2 * num < den) : nearestRank num den = 0 := by
  by_contra nonzero
  have higher : 0 < nearestRank num den := Nat.pos_of_ne_zero nonzero
  have nearer := below_nearestRank higher
  have ordered := units_strictMono higher
  have whole := Nat.le_mul_of_pos_left den
    (show 0 < units 0 + units (nearestRank num den) by omega)
  omega

def toRat (negative : Bool) (rank : Nat) : ℚ := signedUnits negative rank / unitsInOne

/-- A finite float than which no other is nearer to a number. -/
def Nearest (x : Binary64) (q : ℚ) : Prop :=
  ∃ negative rank, x = .finite negative rank ∧
    ∀ other (rank' : Fin infinityRank), |toRat negative rank - q| ≤ |toRat other rank' - q|

theorem abs_sub_le_of_below {a b c : ℚ} (ordered : a ≤ b) (middle : a + b ≤ 2 * c) :
    |b - c| ≤ |a - c| := by
  rw [abs_of_nonpos (by linarith : a - c ≤ 0), abs_le]
  constructor <;> linarith

theorem abs_sub_le_of_above {a b c : ℚ} (ordered : b ≤ a) (middle : 2 * c ≤ a + b) :
    |b - c| ≤ |a - c| := by
  rw [abs_of_nonneg (by linarith : 0 ≤ a - c), abs_le]
  constructor <;> linarith

/- Counted in units, and multiplied by the denominator. -/
theorem nearestRank_nearest {num den : Nat} (positive : 0 < den) (rank : Nat) :
    |(units (nearestRank num den) : ℚ) * den - num| ≤ |(units rank : ℚ) * den - num| := by
  have nonneg : (0 : ℚ) ≤ den := Nat.cast_nonneg den
  rcases Nat.lt_trichotomy rank (nearestRank num den) with lower | same | higher
  · have ordered : (units rank : ℚ) ≤ units (nearestRank num den) := by
      exact_mod_cast units_strictMono.monotone (Nat.le_of_lt lower)
    have middle : ((units rank : ℚ) + units (nearestRank num den)) * den ≤ 2 * num := by
      exact_mod_cast below_nearestRank lower
    apply abs_sub_le_of_below
    · exact mul_le_mul_of_nonneg_right ordered nonneg
    · linarith
  · rw [same]
  · have ordered : (units (nearestRank num den) : ℚ) ≤ units rank := by
      exact_mod_cast units_strictMono.monotone (Nat.le_of_lt higher)
    have middle : 2 * num ≤ ((units rank : ℚ) + units (nearestRank num den)) * den := by
      exact_mod_cast above_nearestRank positive higher
    apply abs_sub_le_of_above
    · exact mul_le_mul_of_nonneg_right ordered nonneg
    · linarith

/-- No float of the other sign is nearer either: zero is not. -/
theorem nearestRank_nearest_signed {num den : Nat} (positive : 0 < den) (negative : Bool)
    (rank : Nat) :
    |(units (nearestRank num den) : ℚ) * den - num| ≤
      |(signedUnits negative rank : ℚ) * den - num| := by
  cases negative with
  | false => simpa [signedUnits] using nearestRank_nearest positive rank
  | true =>
    have zero : units 0 = 0 := rfl
    have product : (0 : ℚ) ≤ units rank * den := mul_nonneg (Nat.cast_nonneg _) (Nat.cast_nonneg _)
    have whole : (0 : ℚ) ≤ num := Nat.cast_nonneg num
    calc |(units (nearestRank num den) : ℚ) * den - num|
        ≤ |(units 0 : ℚ) * den - num| := nearestRank_nearest positive 0
      _ = num := by simp [zero]
      _ ≤ units rank * den + num := by linarith
      _ = |(signedUnits true rank : ℚ) * den - num| := by
          rw [abs_of_nonpos] <;> simp [signedUnits] <;> linarith

theorem units_one : units (1023 * binade) = unitsInOne := by decide +kernel

theorem nearestRank_le_one {num den : Nat} (positive : 0 < den) (small : num ≤ den) :
    nearestRank (unitsInOne * num) den ≤ 1023 * binade := by
  apply nearestRank_le positive
  rw [units_one]
  exact Nat.mul_le_mul_left _ small

/-- A distance to a quotient, in units times the denominator. -/
theorem abs_toRat_sub (negative : Bool) (rank : Nat) {num den : Nat} (positive : 0 < den) :
    |toRat negative rank - num / den| =
      |(signedUnits negative rank : ℚ) * den - (unitsInOne * num : Nat)| / (unitsInOne * den) := by
  have den_pos : (0 : ℚ) < den := Nat.cast_pos.2 positive
  have one_pos : (0 : ℚ) < unitsInOne := Nat.cast_pos.2 (by decide)
  have common : toRat negative rank - num / den =
      ((signedUnits negative rank : ℚ) * den - unitsInOne * num) / (unitsInOne * den) := by
    rw [toRat, div_sub_div _ _ one_pos.ne' den_pos.ne']
  rw [common, abs_div, abs_of_pos (mul_pos one_pos den_pos), Nat.cast_mul]

theorem abs_toRat_not (negative : Bool) (rank : Nat) (q : ℚ) :
    |toRat (!negative) rank - -q| = |toRat negative rank - q| := by
  have opposite : toRat (!negative) rank = -toRat negative rank := by
    cases negative <;> simp [toRat, signedUnits, neg_div]
  rw [opposite, ← abs_neg]
  congr 1
  ring

/-- A quotient, of either sign, is rounded to the nearest float. -/
theorem rounded_nearest {num den : Nat} (negative : Bool) (positive : 0 < den)
    (inside : nearestRank (unitsInOne * num) den < infinityRank) :
    (rounded negative (unitsInOne * num) den).Nearest
      (if negative then -((num : ℚ) / den) else (num : ℚ) / den) := by
  have nearest (other : Bool) (rank : Nat) :
      |toRat false (nearestRank (unitsInOne * num) den) - num / den| ≤
        |toRat other rank - num / den| := by
    have nearer := @nearestRank_nearest_signed (unitsInOne * num) den positive other rank
    have scale : (0 : ℚ) ≤ unitsInOne * den := mul_nonneg (Nat.cast_nonneg _) (Nat.cast_nonneg _)
    rw [abs_toRat_sub _ _ positive, abs_toRat_sub _ _ positive]
    apply div_le_div_of_nonneg_right _ scale
    simpa [signedUnits] using nearer
  refine ⟨negative, ⟨_, inside⟩, dif_pos inside, ?_⟩
  intro other rank
  cases negative with
  | false => exact nearest other rank
  | true =>
    have mirrored := nearest (!other) rank
    rw [← abs_toRat_not false, ← abs_toRat_not (!other), Bool.not_not] at mirrored
    exact mirrored

theorem ofRatio_nearest {num den : Nat} (positive : 0 < den) (small : num ≤ den) :
    (ofRatio num den).Nearest ((num : ℚ) / den) := by
  have inside : nearestRank (unitsInOne * num) den < infinityRank :=
    Nat.lt_of_le_of_lt (nearestRank_le_one positive small) (by decide)
  exact rounded_nearest false positive inside

end DrawPile.Binary64
