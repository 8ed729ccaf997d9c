import DrawPile.Proofs.Name.Usable
import DrawPile.Proofs.Number.Spacing
import DrawPile.Proofs.Weight.Language

/-! The range of dice. A die shows from one to its number of sides, however many these are: more of
them than the floats tell apart are rounded, up or down, but the product with a chance below one is
rounded to less than they are. -/
namespace DrawPile

def Source.BelowOne (s : Source) : Prop := ∀ call, (s.values call).rank < oneRank

namespace Weight
open Binary64

/-- A die without sides shows one, as a die with one side does. -/
theorem shown_range {c : Chance} (proper : c.rank < oneRank) {sides : Nat}
    (small : sides < overflowBound) {shown : Int} (known : c.scale? sides = some shown) :
    1 ≤ shown + 1 ∧ shown + 1 ≤ max sides 1 := by
  rcases Nat.eq_zero_or_pos sides with rfl | positive
  · have zero : shown = 0 := Option.some.inj (known.symm.trans c.scale?_zero)
    rw [zero]
    decide
  · obtain ⟨m, below, scaled⟩ := c.exists_scale?_lt proper positive small
    have same : shown = m := Option.some.inj (known.symm.trans scaled)
    omega

theorem sum_range_bounds {shows : Nat → Int} {low high : Int} {count : Nat}
    (bounds : ∀ i < count, low ≤ shows i ∧ shows i ≤ high) :
    count * low ≤ ((List.range count).map shows).sum ∧
      ((List.range count).map shows).sum ≤ count * high := by
  have each : ∀ n ∈ (List.range count).map shows, low ≤ n ∧ n ≤ high := by
    intro n member
    obtain ⟨i, below, rfl⟩ := List.mem_map.1 member
    exact bounds i (List.mem_range.1 below)
  have above := List.card_nsmul_le_sum _ low fun n member => (each n member).1
  have under := List.sum_le_card_nsmul _ high fun n member => (each n member).2
  simp only [List.length_map, List.length_range, nsmul_eq_mul] at above under
  exact ⟨above, under⟩

/-- The digits of dice, in the order in which they are read. -/
def Dice.runs (d : Dice) : List Text := d.count :: d.sides :: (d.modifier.map Prod.snd).toList

/-- The first of them that are too many to be read. -/
def Dice.tooLong? (d : Dice) : Option Text :=
  d.runs.find? fun digits => decide (Text.maxDigits < digits.length)

section Roll
variable {d : Dice}

theorem not_excessive (short : d.tooLong? = none) (small : Text.toNat d.sides < overflowBound) :
    ¬ d.Excessive := by
  simp only [Dice.tooLong?, List.find?_eq_none, decide_eq_true_eq, Dice.runs] at short
  intro excessive
  cases excessive with
  | count long => exact short _ List.mem_cons_self long
  | sides long => exact short _ (by simp) long
  | modifier given long => exact short _ (by simp [given]) long
  | faces _ many => exact Nat.not_le_of_lt small many

theorem readDigits_long {digits : Text} (long : Text.maxDigits < digits.length) :
    readDigits digits = .error (.tooManyDigits digits.length) := if_pos long

theorem readDigits_short {digits : Text} (short : ¬ Text.maxDigits < digits.length) :
    readDigits digits = .ok (Text.toNat digits) := if_neg short

theorem countOf_long (long : Text.maxDigits < d.count.length) :
    d.countOf = .error (.tooManyDigits d.count.length) := by
  have any : d.count ≠ [] := by
    intro missing
    simp [missing] at long
  exact (if_neg any).trans (readDigits_long long)

theorem exists_countOf (short : ¬ Text.maxDigits < d.count.length) : ∃ n, d.countOf = .ok n := by
  unfold Dice.countOf
  split
  · exact ⟨1, rfl⟩
  · exact ⟨_, readDigits_short short⟩

/-- Dice with a number that is too long are refused for the first such number, before any is rolled. -/
theorem roll_tooLong {digits : Text} (long : d.tooLong? = some digits) (s : Source) :
    d.roll s = (s, .error (.tooManyDigits digits.length)) := by
  unfold Dice.roll
  by_cases count_long : Text.maxDigits < d.count.length
  · have first : digits = d.count := by simpa [Dice.tooLong?, Dice.runs, count_long] using long.symm
    simp only [countOf_long count_long, first]
    rfl
  · obtain ⟨n, read⟩ := exists_countOf count_long
    by_cases sides_long : Text.maxDigits < d.sides.length
    · have first : digits = d.sides := by
        simpa [Dice.tooLong?, Dice.runs, count_long, sides_long] using long.symm
      simp only [read, first, readDigits_long sides_long]
      rfl
    · simp only [Dice.tooLong?, Dice.runs, List.find?_cons, count_long, sides_long,
        decide_false] at long
      have found := List.find?_some long
      have member := List.mem_of_find?_eq_some long
      obtain ⟨negative, given⟩ : ∃ negative, d.modifier = some (negative, digits) := by
        simpa using member
      have modifier : d.modifierOf = .error (.tooManyDigits digits.length) := by
        simp only [Dice.modifierOf, given, readDigits_long (of_decide_eq_true found)]
        rfl
      simp only [read, readDigits_short sides_long, modifier]
      rfl

/-- Dice that can be read show from one to the number of sides each. -/
theorem roll_range {s : Source} (below_one : s.BelowOne)
    (small : Text.toNat d.sides < overflowBound) (short : d.tooLong? = none) :
    ∃ sum, d.roll s = ({ s with calls := s.calls + d.number }, .ok sum) ∧
      d.number + d.addend ≤ sum ∧ sum ≤ d.number * max (Text.toNat d.sides) 1 + d.addend := by
  obtain ⟨shown, known, rolled⟩ := roll_eq (not_excessive short small) s
  have bounds : ∀ i < d.number, 1 ≤ shown i + 1 ∧ shown i + 1 ≤ max (Text.toNat d.sides) 1 :=
    fun i below => shown_range (below_one _) small (known i below)
  obtain ⟨above, under⟩ := sum_range_bounds bounds
  rw [mul_one] at above
  exact ⟨_, rolled, Int.add_le_add_right above _, Int.add_le_add_right under _⟩

theorem Dice.Spelled.visible {t : Text} (spelled : Dice.Spelled t d) :
    ∀ c ∈ t, Text.isBlank c = false := by
  obtain ⟨counted, letter, -, all, modified⟩ := spelled
  have digits {run : Text} (known : run.Digits) : ∀ c ∈ run, Text.isBlank c = false :=
    fun c member => Text.isBlank_of_isDigit (known c member)
  intro c member
  rcases List.mem_append.1 member with first | member
  · exact digits counted c first
  · rcases List.mem_cons.1 member with rfl | member
    · rcases letter with rfl | rfl <;> rfl
    · rcases List.mem_append.1 member with second | third
      · exact digits all c second
      · cases modified with
        | none => cases third
        | plus _ all | minus _ all =>
          rcases List.mem_cons.1 third with rfl | third
          · rfl
          · exact digits all c third

theorem Dice.Spelled.trim_eq {t : Text} (spelled : Dice.Spelled t d) : Text.trim t = t := by
  apply Text.trim_eq_self
  · exact fun c first => spelled.visible c (List.mem_of_head? first)
  · exact fun c last => spelled.visible c (List.mem_of_getLast? last)

theorem evaluate_of_spelled {expression : Text} (spelled : Dice.Spelled (Text.trim expression) d)
    (s : Source) : evaluate expression s = (d.roll s).map .whole := by
  have no_numeral : literal? (Text.trim expression) = none :=
    literal?_eq_none_iff.2 fun q numeral => absurd numeral (spelled.not_numeral q)
  simp only [evaluate, no_numeral, dice?_eq_some_iff.2 spelled]

end Roll

/-- Where the source gives chances below one and the sides are within the floats, dice come to at
least their number and at most what all their highest faces add up to, with the modifier: unless a
number is too long to be read, and then they are refused before any is rolled. -/
theorem dice_in_range (expression : Text) (d : Dice) (s : Source)
    (spelled : Dice.Spelled (Text.trim expression) d) (below_one : s.BelowOne)
    (small : Text.toNat d.sides < overflowBound) :
    (d.tooLong? = none → ∃ sum,
      evaluate expression s = ({ s with calls := s.calls + d.number }, .ok (.whole sum)) ∧
        d.number + d.addend ≤ sum ∧ sum ≤ d.number * max (Text.toNat d.sides) 1 + d.addend) ∧
    ∀ digits, d.tooLong? = some digits →
      evaluate expression s = (s, .error (.tooManyDigits digits.length)) := by
  rw [evaluate_of_spelled spelled]
  constructor
  · intro short
    obtain ⟨sum, rolled, bounds⟩ := roll_range below_one small short
    exact ⟨sum, by rw [rolled, Outcome.map_ok], bounds⟩
  · intro digits long
    rw [roll_tooLong long, Outcome.map_error]

/- Two dice of 2^53 + 3 sides, which a float holds as 2^53 + 4. -/
def wideDice : Dice := ⟨['2'], "9007199254740995".toList, some (true, ['1'])⟩

def nearlyOne : Source := .cycle #[⟨oneRank - 1, Nat.sub_le _ _⟩]

theorem nearlyOne_belowOne : nearlyOne.BelowOne := by
  intro call
  have same : nearlyOne.values call = nearlyOne.values 0 := by
    simp [nearlyOne, Source.cycle, Nat.mod_one]
  rw [same]
  decide

theorem dice_in_range_of_wide :
    Dice.Spelled (Text.trim "2d9007199254740995-1".toList) wideDice ∧ wideDice.tooLong? = none ∧
      ∃ sum, evaluate "2d9007199254740995-1".toList nearlyOne =
          ({ nearlyOne with calls := 2 }, .ok (.whole sum)) ∧
        1 ≤ sum ∧ sum ≤ 2 * 9007199254740995 - 1 ∧ sum = 2 * 9007199254740995 - 1 := by
  have spelled : Dice.Spelled (Text.trim "2d9007199254740995-1".toList) wideDice :=
    dice?_eq_some_iff.1 (by decide +kernel)
  have short : wideDice.tooLong? = none := by decide +kernel
  obtain ⟨sum, rolled, above, under⟩ := (dice_in_range _ wideDice nearlyOne spelled
    nearlyOne_belowOne (by decide +kernel)).1 short
  have highest : (evaluate "2d9007199254740995-1".toList nearlyOne).2 =
      .ok (.whole (2 * 9007199254740995 - 1)) := by decide +kernel
  rw [rolled] at highest
  cases highest
  exact ⟨spelled, short, _, rolled, above, under, rfl⟩

/- A one and 4300 zeros. -/
def longDigits : Text := '1' :: List.replicate 4300 '0'

theorem length_longDigits : longDigits.length = 4301 := by
  simp only [longDigits, List.length_cons, List.length_replicate]

theorem longDigits_digits : longDigits.Digits := by
  intro c member
  rcases List.mem_cons.1 member with rfl | zero
  · rfl
  · rw [List.eq_of_mem_replicate zero]
    rfl

theorem longModifier_refused :
    Dice.Spelled (Text.trim ('d' :: '6' :: '+' :: longDigits)) ⟨[], ['6'], some (false, longDigits)⟩ ∧
      evaluate ('d' :: '6' :: '+' :: longDigits) half = (half, .error (.tooManyDigits 4301)) := by
  have any : longDigits ≠ [] := List.cons_ne_nil _ _
  have spelled : Dice.Spelled ('d' :: '6' :: '+' :: longDigits)
      ⟨[], ['6'], some (false, longDigits)⟩ :=
    @Dice.Spelled.dice [] ['6'] ('+' :: longDigits) 'd' _ nofun (.inl rfl) (by decide)
      (by simp [Text.Digits, Text.isDigit]) (.plus any longDigits_digits)
  have long : Dice.tooLong? ⟨[], ['6'], some (false, longDigits)⟩ = some longDigits := by
    simp [Dice.tooLong?, Dice.runs, Text.maxDigits, length_longDigits]
  have trimmed := spelled.trim_eq
  rw [evaluate_of_spelled (trimmed.symm ▸ spelled), roll_tooLong long, Outcome.map_error,
    length_longDigits, trimmed]
  exact ⟨spelled, rfl⟩

end Weight

end DrawPile
