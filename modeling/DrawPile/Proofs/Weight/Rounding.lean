import DrawPile.Proofs.Number.HalfUp
import DrawPile.Proofs.Number.Numeral
import DrawPile.Proofs.Weight

/-! Weights of floats. A number weighs what it is rounded half up to, within the range; only the odd
whole numbers from 2^52 to 2^53, which the sum with a half takes to the next even one, weigh one more.
So a text weighs what its number does as a float, but a whole number does not always weigh the same as
a float and as a whole number. -/
namespace DrawPile.Weight
open Binary64
variable {negative : Bool}

theorem natCast_ofInt (n : Int) : (ofInt n : Int) = min (greatest : Int) (max (least : Int) n) := by
  have positive : (0 : Int) ≤ min (greatest : Int) (max (least : Int) n) := by
    have range : (0 : Int) ≤ greatest ∧ (0 : Int) ≤ least := by decide
    omega
  exact Int.toNat_of_nonneg positive

theorem ofInt_mono {m n : Int} (less : m ≤ n) : ofInt m ≤ ofInt n := by
  have left := natCast_ofInt m
  have right := natCast_ofInt n
  omega

theorem least_le_ofInt (n : Int) : least ≤ ofInt n := by
  have range : least ≤ greatest := by decide
  have clamped := natCast_ofInt n
  omega

theorem ofInt_eq_least {n : Int} (small : n ≤ 1) : ofInt n = least := by
  have range : (1 : Int) = least ∧ least ≤ greatest := by decide
  have clamped := natCast_ofInt n
  omega

/-- The weight of the sum of a number and a half, in units. -/
def ofSum (sum : Int) : Nat :=
  if 0 < sum then ofInt ((units (nearestRank sum.toNat 1) / unitsInOne : Nat) : Int) else least

theorem ofSum_mono {sum sum' : Int} (less : sum ≤ sum') : ofSum sum ≤ ofSum sum' := by
  unfold ofSum
  split
  · next positive =>
    rw [if_pos (Int.lt_of_lt_of_le positive less)]
    have ranks := nearestRank_mono Nat.one_pos (Int.toNat_le_toNat less)
    have floors := Nat.div_le_div_right (c := unitsInOne) (units_strictMono.monotone ranks)
    exact ofInt_mono (Int.ofNat_le.2 floors)
  · split
    · exact least_le_ofInt _
    · exact Nat.le_refl _

theorem floor?_rounded (negative : Bool) (num den : Nat) :
    (rounded negative num den).floor? =
      if nearestRank num den < infinityRank then
        some (signedUnits negative (nearestRank num den) / (unitsInOne : Int))
      else none := by
  unfold rounded
  split <;> rfl

/-- A sum that is rounded to no positive number has the least weight, as one that is out of range. -/
theorem ofRounded_eq_least {num : Nat} (small : signedUnits negative (nearestRank num 1) ≤ 0) :
    (match (rounded negative num 1).floor? with | some n => ofInt n | none => least) = least := by
  have positive : (0 : Int) < unitsInOne := Int.natCast_pos.2 unitsInOne_pos
  have floor : signedUnits negative (nearestRank num 1) / (unitsInOne : Int) ≤ 1 := by
    have ordered := Int.ediv_le_ediv positive small
    rw [Int.zero_ediv] at ordered
    exact Int.le_trans ordered (by decide)
  rw [floor?_rounded]
  by_cases finite : nearestRank num 1 < infinityRank
  · simp only [finite, if_true, ofInt_eq_least floor]
  · simp only [finite, if_false]

theorem ofFloat_eq (negative : Bool) (rank : Fin infinityRank) :
    ofFloat (.finite negative rank) = ofSum (signedUnits negative rank + halfInUnits) := by
  have added : (finite negative rank).add .half =
      if signedUnits negative rank + (halfInUnits : Int) = 0 then rounded (negative && false) 0 1
      else rounded (decide (signedUnits negative rank + (halfInUnits : Int) < 0))
        (signedUnits negative rank + (halfInUnits : Int)).natAbs 1 := rfl
  have bound : signedUnits negative rank ≤ units rank := by
    unfold signedUnits
    split <;> omega
  rw [ofFloat, added]
  generalize signedUnits negative rank = number at *
  rcases Int.lt_trichotomy (number + halfInUnits) 0 with below | zero | above
  · have nonzero : number + (halfInUnits : Int) ≠ 0 := Int.ne_of_lt below
    have not_above : ¬ 0 < number + (halfInUnits : Int) := Int.lt_asymm below
    simp only [nonzero, if_false, below, decide_true, ofSum, not_above]
    apply ofRounded_eq_least
    simp [signedUnits]
  · simp only [zero, if_true, ofSum, Int.lt_irrefl, if_false]
    apply ofRounded_eq_least
    rw [nearestRank_eq_zero (by decide), Bool.and_false]
    exact Int.le_refl 0
  · have nonzero : number + (halfInUnits : Int) ≠ 0 := (Int.ne_of_lt above).symm
    have not_below : ¬ number + (halfInUnits : Int) < 0 := Int.lt_asymm above
    have finite : nearestRank (number + (halfInUnits : Int)).natAbs 1 < infinityRank := by
      have ordered := @nearestRank_mono (number + (halfInUnits : Int)).natAbs
        (units rank + halfInUnits) 1 Nat.one_pos (by omega)
      exact Nat.lt_of_le_of_lt ordered (nearestRank_add_half_lt rank.isLt)
    have magnitude : (number + (halfInUnits : Int)).toNat = (number + (halfInUnits : Int)).natAbs := by
      omega
    simp only [nonzero, if_false, not_below, decide_false, ofSum, above, if_true, floor?_rounded,
      finite, magnitude, signedUnits, Bool.false_eq_true, Int.natCast_ediv]

/-- The weight is that of the floor of the exact sum. -/
theorem ofSum_eq (negative : Bool) (rank : Nat)
    (other : ∀ n : Int, signedUnits negative rank = n * unitsInOne → ¬ OddBetween n) :
    ofSum (signedUnits negative rank + halfInUnits) =
      ofInt ((signedUnits negative rank + halfInUnits) / unitsInOne) := by
  have half := two_mul_halfInUnits
  have positive : (0 : Int) < unitsInOne := Int.natCast_pos.2 unitsInOne_pos
  rw [ofSum]
  split
  · next above =>
    rcases Int.lt_or_le (signedUnits negative rank) halfInUnits with small | large
    · have nothing : (signedUnits negative rank + (halfInUnits : Int)) / unitsInOne = 0 :=
        Int.ediv_eq_zero_of_lt (Int.le_of_lt above) (by omega)
      have rounded_down := @floor_nearestRank_le_one
        (signedUnits negative rank + (halfInUnits : Int)).toNat (by omega)
      rw [nothing, ofInt_eq_least (Int.ofNat_le.2 rounded_down)]
      exact (ofInt_eq_least (by decide)).symm
    · have same : signedUnits negative rank = units rank := signedUnits_of_pos (by omega)
      rw [same] at large other ⊢
      have whole := @floor_nearestRank_add_half rank (Int.ofNat_le.1 large)
        fun n units_n => other n (by exact_mod_cast units_n)
      rw [← Int.natCast_add, Int.toNat_natCast, whole, Int.natCast_ediv]
  · next not_above =>
    have floor := Int.ediv_le_ediv positive (Int.le_of_not_gt not_above)
    rw [Int.zero_ediv] at floor
    exact (ofInt_eq_least (Int.le_trans floor (by decide))).symm

theorem ofSum_eq_of_odd {n : Int} {rank : Nat} (odd : OddBetween n)
    (same : signedUnits negative rank = n * unitsInOne) :
    ofSum (signedUnits negative rank + halfInUnits) = ofInt (n + 1) := by
  have positive : (0 : Int) < unitsInOne := Int.natCast_pos.2 unitsInOne_pos
  have above := odd.2.1
  obtain ⟨m, rfl⟩ : ∃ m : Nat, n = m := Int.eq_ofNat_of_zero_le (by omega)
  have some_units : (0 : Int) < m * unitsInOne := Int.mul_pos (by omega) positive
  have plain := signedUnits_of_pos (same ▸ some_units)
  rw [plain] at same ⊢
  have natural : units rank = m * unitsInOne := by exact_mod_cast same
  rw [ofSum, if_pos (by omega), ← Int.natCast_add, Int.toNat_natCast,
    floor_nearestRank_add_half_odd odd natural, Int.natCast_add]
  rfl

theorem ofFloat_mono {rank : Fin infinityRank} {negative' : Bool} {rank' : Fin infinityRank}
    (less : toRat negative rank ≤ toRat negative' rank') :
    ofFloat (.finite negative rank) ≤ ofFloat (.finite negative' rank') := by
  rw [ofFloat_eq, ofFloat_eq]
  exact ofSum_mono (Int.add_le_add_right (toRat_le_iff.1 less) _)

theorem ofText_numeral {rank : Fin infinityRank} {t : Text} {d : Decimal}
    (numeral : Decimal.Numeral t d) (same : d.value = toRat negative rank) :
    ofText t = ofFloat (.finite negative rank) := by
  have small : |d.value| < overflowBound := same ▸ abs_toRat_lt negative rank
  obtain ⟨sign, nearest, read, nearer⟩ := d.toBinary64_meets.1 small
  have value : toRat sign nearest = toRat negative rank := by
    have distance := nearer negative rank
    rw [same, sub_self, abs_zero, abs_nonpos_iff, sub_eq_zero] at distance
    exact distance
  have typed : ofText t = ofFloat (.finite sign nearest) := by
    rw [ofText, parseLoose?_numeral numeral, parse?_eq_finite_iff.2 ⟨d, numeral, read⟩]
  rw [typed]
  exact Nat.le_antisymm (ofFloat_mono (le_of_eq value)) (ofFloat_mono (ge_of_eq value))

/-- A float that is no odd whole number from 2^52 to 2^53 weighs what it is rounded half up to. -/
theorem ofFloat_half_up {rank : Fin infinityRank}
    (other : ∀ n : Int, toRat negative rank = n → ¬ OddBetween n) :
    ofFloat (.finite negative rank) = ofInt ⌊toRat negative rank + 1 / 2⌋ := by
  rw [ofFloat_eq, floor_toRat_add_half]
  exact ofSum_eq negative rank fun n same => other n (toRat_eq_intCast_iff.2 same)

theorem ofFloat_of_odd {rank : Fin infinityRank} {n : Int} (odd : OddBetween n)
    (same : toRat negative rank = n) :
    ofFloat (.finite negative rank) = ofInt (n + 1) := by
  rw [ofFloat_eq]
  exact ofSum_eq_of_odd odd (toRat_eq_intCast_iff.1 same)

theorem floor_intCast_add_half (n : Int) : ⌊(n : ℚ) + 1 / 2⌋ = n := by
  rw [Int.floor_eq_iff]
  constructor <;> linarith

theorem natCast_ofInt_of_between {n : Int} (positive : 1 ≤ n) (below : n ≤ 2 * binade) :
    (ofInt n : Int) = n := by
  have range : (1 : Int) = least ∧ 2 * (binade : Int) ≤ greatest := by decide
  have clamped := natCast_ofInt n
  omega

theorem natCast_ofInt_of_odd {n : Int} (odd : OddBetween n) :
    (ofInt n : Int) = n ∧ (ofInt (n + 1) : Int) = n + 1 := by
  obtain ⟨-, above, below⟩ := odd
  have positive : (0 : Int) ≤ binade := Int.natCast_nonneg _
  exact ⟨natCast_ofInt_of_between (by omega) (by omega), natCast_ofInt_of_between (by omega) (by omega)⟩

/-- A float weighs what it is rounded half up to, exactly if it is none of the odd whole numbers from
2^52 to 2^53; these weigh one more. A whole number weighs the same as a float and as a whole number
unless it is one of them, and the same as a float and as a text; and no greater float weighs less. -/
theorem floats_half_up_unless_odd (negative : Bool) (rank : Fin infinityRank) :
    ((ofJson (.float (.finite negative rank)) : Int) =
        min (greatest : Int) (max (least : Int) ⌊toRat negative rank + 1 / 2⌋) ↔
      ∀ n : Int, toRat negative rank = n → ¬ OddBetween n) ∧
    (∀ n : Int, toRat negative rank = n →
      (OddBetween n → (ofJson (.float (.finite negative rank)) : Int) = n + 1) ∧
      (ofJson (.float (.finite negative rank)) = ofJson (.int n) ↔ ¬ OddBetween n) ∧
      ofJson (.text (Text.ofInt n)) = ofJson (.float (.finite negative rank))) ∧
    (∀ t d, Decimal.Numeral t d → d.value = toRat negative rank →
      ofJson (.text t) = ofJson (.float (.finite negative rank))) ∧
    ∀ negative' (rank' : Fin infinityRank), toRat negative rank ≤ toRat negative' rank' →
      ofJson (.float (.finite negative rank)) ≤ ofJson (.float (.finite negative' rank')) := by
  refine ⟨?_, ?_, fun t d numeral same => ofText_numeral numeral same,
    fun negative' rank' less => ofFloat_mono less⟩
  · rw [← natCast_ofInt]
    constructor
    · intro exact_sum n same odd
      have next := natCast_ofInt_of_odd odd
      rw [same, floor_intCast_add_half] at exact_sum
      simp only [ofJson, ofFloat_of_odd odd same] at exact_sum
      omega
    · intro other
      exact congrArg Nat.cast (ofFloat_half_up other)
  · intro n same
    refine ⟨fun odd => ?_, ⟨fun alike odd => ?_, fun not_odd => ?_⟩, ?_⟩
    · exact (congrArg Nat.cast (ofFloat_of_odd odd same)).trans (natCast_ofInt_of_odd odd).2
    · have next := natCast_ofInt_of_odd odd
      simp only [ofJson, ofFloat_of_odd odd same] at alike
      omega
    · have other (m : Int) (also : toRat negative rank = m) : ¬ OddBetween m := by
        obtain rfl : n = m := by exact_mod_cast same.symm.trans also
        exact not_odd
      have weight := ofFloat_half_up other
      rwa [same, floor_intCast_add_half] at weight
    · obtain ⟨d, numeral, value⟩ := Decimal.exists_numeral n
      exact ofText_numeral numeral (value.trans same.symm)

/- The first of the odd numbers: 2^52 + 1. -/
def firstOdd : Fin infinityRank := ⟨1074 * binade + (binade + 1), by decide⟩

theorem toRat_firstOdd : toRat false firstOdd = ((binade + 1 : Int) : ℚ) := by
  have scaled : signedUnits false firstOdd = (binade + 1 : Int) * unitsInOne := by decide +kernel
  exact toRat_eq_intCast_iff.2 scaled

theorem floats_half_up_unless_odd_of_first :
    OddBetween (binade + 1) ∧ toRat false firstOdd = ((binade + 1 : Int) : ℚ) ∧
      (ofJson (.float (.finite false firstOdd)) : Int) = binade + 1 + 1 ∧
      ofJson (.text (Text.ofInt (binade + 1))) = ofJson (.float (.finite false firstOdd)) := by
  obtain ⟨-, whole, -, -⟩ := floats_half_up_unless_odd false firstOdd
  have odd : OddBetween (binade + 1) := by decide
  obtain ⟨weight, -, typed⟩ := whole (binade + 1) toRat_firstOdd
  exact ⟨odd, toRat_firstOdd, weight odd, typed⟩

theorem firstOdd_weighs_more :
    toRat false firstOdd = ((4503599627370497 : Int) : ℚ) ∧
      ofJson (.int 4503599627370497) = 4503599627370497 ∧
      ofJson (.float (.finite false firstOdd)) = 4503599627370498 := by
  refine ⟨toRat_firstOdd, by decide, ?_⟩
  decide +kernel

end DrawPile.Weight
