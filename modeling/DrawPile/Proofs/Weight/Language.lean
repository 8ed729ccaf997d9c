import DrawPile.Proofs.Number.Numeral
import DrawPile.Proofs.Weight

/-! The language of weight expressions. Dice and numerals are spelled by rules of their own, and no
text is spelled by both. Dice are rolled one after another and their modifier is added; a numeral is
the float nearest to it; and whatever is neither counts as one, without a call of the source. -/
namespace DrawPile

namespace Weight
open Binary64

/- What is written behind the sides of dice. -/
inductive Modifier : Text → Option (Bool × Text) → Prop
  | none : Modifier [] none
  | plus {digits : Text} (any : digits ≠ []) (all : digits.Digits) :
      Modifier ('+' :: digits) (some (false, digits))
  | minus {digits : Text} (any : digits ≠ []) (all : digits.Digits) :
      Modifier ('-' :: digits) (some (true, digits))

inductive Dice.Spelled : Text → Dice → Prop
  | dice {count sides written : Text} {mark : Char} {modifier : Option (Bool × Text)}
      (counted : count.Digits) (letter : mark = 'd' ∨ mark = 'D') (any : sides ≠ [])
      (all : sides.Digits) (modified : Modifier written modifier) :
      Spelled (count ++ mark :: (sides ++ written)) ⟨count, sides, modifier⟩

section Spelling

theorem modifier?_eq_some_iff {t : Text} {modifier : Option (Bool × Text)} :
    modifier? t = some modifier ↔ Modifier t modifier := by
  constructor
  · intro read
    cases t with
    | nil =>
      cases read
      exact .none
    | cons sign digits =>
      simp only [modifier?, Option.ite_none_right_eq_some, Option.some.injEq,
        Text.digits_iff_all] at read
      obtain ⟨⟨rfl | rfl, any, all⟩, rfl⟩ := read
      · exact .plus any all
      · exact .minus any all
  · intro modified
    cases modified with
    | none => rfl
    | plus any all | minus any all => simp [modifier?, any, (Text.digits_iff_all _).2 all]

theorem Modifier.not_digit {t : Text} {modifier : Option (Bool × Text)}
    (modified : Modifier t modifier) :
    ∀ c ∈ t.head?, Text.isDigit c = false := by
  cases modified <;> simp <;> rfl

theorem dice?_eq_some_iff {t : Text} {d : Dice} : dice? t = some d ↔ Dice.Spelled t d := by
  constructor
  · intro read
    obtain ⟨counted, whole⟩ := Text.splitDigits_spec t
    unfold dice? at read
    generalize Decimal.splitDigits t = parts at *
    obtain ⟨count, _ | ⟨mark, behind⟩⟩ := parts
    · cases read
    · obtain ⟨all, rest⟩ := Text.splitDigits_spec behind
      simp only [Option.ite_none_right_eq_some, Option.map_eq_some_iff] at read
      generalize Decimal.splitDigits behind = parts at *
      obtain ⟨sides, written⟩ := parts
      obtain ⟨⟨letter, any⟩, modifier, modified, rfl⟩ := read
      subst whole rest
      exact .dice counted letter any all (modifier?_eq_some_iff.1 modified)
  · rintro ⟨counted, letter, any, all, modified⟩
    next count sides written mark modifier =>
    have stops : ∀ c ∈ (mark :: (sides ++ written)).head?, Text.isDigit c = false := by
      rintro _ ⟨⟩
      rcases letter with rfl | rfl <;> rfl
    simp only [dice?, Text.splitDigits_append counted stops,
      Text.splitDigits_append all modified.not_digit, letter, any, ne_eq, not_false_eq_true,
      and_self, if_true, modifier?_eq_some_iff.2 modified, Option.map_some]

/-- No text spells both dice and a number: the letter of dice is in no numeral. -/
theorem Dice.Spelled.not_numeral {t : Text} {d : Dice} (spelled : Dice.Spelled t d) (q : Decimal) :
    ¬ Decimal.Numeral t q := by
  obtain ⟨-, letter, -, -, -⟩ := spelled
  intro numeral
  have known := numeral.chars _ (List.mem_append_right _ List.mem_cons_self)
  rcases letter with rfl | rfl <;> revert known <;> decide

end Spelling

/-- A quantity is the number that a float is, and a whole one where it is a whole number. -/
inductive Quantity.Is (negative : Bool) (rank : Fin infinityRank) : Quantity → Prop
  | whole {n : Int} (same : toRat negative rank = n) : Is negative rank (.whole n)
  | fractional (broken : ∀ n : Int, toRat negative rank ≠ n) :
      Is negative rank (.fractional (.finite negative rank))

section Literal

theorem literal?_of_finite {t : Text} {negative : Bool} {rank : Fin infinityRank}
    (read : parse? t = some (.finite negative rank)) :
    ∃ q, literal? t = some q ∧ Quantity.Is negative rank q := by
  simp only [literal?, read]
  cases whole : (finite negative rank).toInt? with
  | some n => exact ⟨_, rfl, .whole (toInt?_eq_some_iff.1 whole)⟩
  | none =>
    refine ⟨_, rfl, .fractional ?_⟩
    intro n same
    rw [toInt?_eq_some_iff.2 same] at whole
    cases whole

theorem literal?_eq_none_iff {t : Text} : literal? t = none ↔
    ∀ d, Decimal.Numeral t d → ¬ |d.value| < overflowBound := by
  constructor
  · intro unread d numeral small
    obtain ⟨negative, rank, finite⟩ := d.toBinary64_finite_iff.2 small
    obtain ⟨q, read, -⟩ := literal?_of_finite (parse?_eq_finite_iff.2 ⟨d, numeral, finite⟩)
    rw [read] at unread
    cases unread
  · intro beyond
    unfold literal?
    split
    · next negative rank read =>
      obtain ⟨d, numeral, finite⟩ := parse?_eq_finite_iff.1 read
      exact absurd (d.toBinary64_finite_iff.1 ⟨negative, rank, finite⟩) (beyond d numeral)
    · rfl

end Literal

def Dice.addend (d : Dice) : Int :=
  match d.modifier with
  | none => 0
  | some (negative, digits) => if negative then -(Text.toNat digits : Int) else Text.toNat digits

theorem rollDice_eq {sides : Int} {count : Nat} {shown : Nat → Int} {s : Source}
    (shows : ∀ i < count, (s.values (s.calls + i)).scale? sides = some (shown i)) (sum : Int) :
    rollDice sides count sum s = ({ s with calls := s.calls + count },
      .ok (sum + ((List.range count).map fun i => shown i + 1).sum)) := by
  induction count generalizing shown s sum with
  | zero => simp [rollDice]
  | succ count ih =>
    have first : (s.values s.calls).scale? sides = some (shown 0) := shows 0 count.succ_pos
    have later : ∀ i < count, (s.values (s.calls + 1 + i)).scale? sides = some (shown (i + 1)) := by
      intro i below
      rw [Nat.add_right_comm]
      exact shows (i + 1) (Nat.succ_lt_succ below)
    have rest := @ih (fun i => shown (i + 1)) { s with calls := s.calls + 1 } later
      (sum + (shown 0 + 1))
    dsimp only at rest
    rw [Nat.add_right_comm, Int.add_assoc] at rest
    rw [rollDice, rollDie, Source.scaled_eq, first, Outcome.map_ok, Outcome.andThen_ok, rest,
      List.range_succ_eq_map, List.map_cons, List.sum_cons, List.map_map]
    rfl

/-- Dice that are not excessive are rolled one after another, each with one call of the source. -/
theorem roll_eq {d : Dice} (fits : ¬ d.Excessive) (s : Source) :
    ∃ shown : Nat → Int,
      (∀ i < d.number,
        (s.values (s.calls + i)).scale? (Text.toNat d.sides) = some (shown i)) ∧
      d.roll s = ({ s with calls := s.calls + d.number },
        .ok (((List.range d.number).map fun i => shown i + 1).sum + d.addend)) := by
  have count : d.countOf = .ok d.number := by
    unfold Dice.countOf Dice.number readDigits
    have short : ¬ Text.maxDigits < d.count.length := fun long => fits (.count long)
    split_ifs <;> rfl
  have sides : readDigits d.sides = .ok (Text.toNat d.sides) :=
    if_neg fun long => fits (.sides long)
  have modifier : d.modifierOf = .ok d.addend := by
    unfold Dice.modifierOf Dice.addend
    rcases given : d.modifier with _ | ⟨negative, digits⟩
    · rfl
    · have read : readDigits digits = .ok (Text.toNat digits) :=
        if_neg fun long => fits (.modifier given long)
      simp only [read]
      rfl
  have shows : ∀ i < d.number, ∃ n,
      (s.values (s.calls + i)).scale? (Text.toNat d.sides) = some n := by
    intro i below
    rw [← Option.ne_none_iff_exists']
    intro beyond
    rw [Chance.scale?_eq_none_iff] at beyond
    apply fits
    apply Dice.Excessive.faces _ beyond
    by_cases missing : d.count = []
    · exact .inl missing
    · rw [Dice.number, if_neg missing] at below
      exact .inr (Nat.zero_lt_of_lt below)
  choose! shown known using shows
  refine ⟨shown, known, ?_⟩
  rw [Dice.roll, count, sides, modifier]
  simp only [Outcome.of_ok, Outcome.andThen_ok, rollDice_eq known, Outcome.map_ok, Int.zero_add]

theorem roll_excessive {d : Dice} (excessive : d.Excessive) (s : Source) :
    ∃ after e, d.roll s = (after, .error e) ∧ e.OfDice := by
  have meets := roll_meets d s
  generalize d.roll s = o at *
  obtain ⟨after, e | sum⟩ := o
  · exact ⟨after, e, rfl, meets.2⟩
  · exact absurd excessive meets

/-- An expression is evaluated by what it spells without the blanks around it. Dice are rolled with
one call for each, and what they show is added up with their modifier; dice that cannot be rolled
are refused. A numeral within the range of floats gives the float nearest to it, as a whole number
where it is one. Anything else gives one without a call. No text spells both dice and a numeral. -/
theorem evaluate_language (expression : Text) (s : Source) :
    (∀ d, Dice.Spelled (Text.trim expression) d →
      (¬ d.Excessive → ∃ shown : Nat → Int,
        (∀ i < d.number,
          (s.values (s.calls + i)).scale? (Text.toNat d.sides) = some (shown i)) ∧
        evaluate expression s = ({ s with calls := s.calls + d.number },
          .ok (.whole (((List.range d.number).map fun i => shown i + 1).sum + d.addend)))) ∧
      (d.Excessive → ∃ after e, evaluate expression s = (after, .error e) ∧ e.OfDice)) ∧
    (∀ d, Decimal.Numeral (Text.trim expression) d → |d.value| < overflowBound →
      ∃ negative rank q, d.toBinary64 = .finite negative rank ∧ d.toBinary64.Nearest d.value ∧
        Quantity.Is negative rank q ∧ evaluate expression s = (s, .ok q)) ∧
    ((∀ d, ¬ Dice.Spelled (Text.trim expression) d) →
      (∀ d, Decimal.Numeral (Text.trim expression) d → ¬ |d.value| < overflowBound) →
        evaluate expression s = (s, .ok (.whole 1))) ∧
    ∀ t d d', Dice.Spelled t d → ¬ Decimal.Numeral t d' := by
  refine ⟨?_, ?_, ?_, fun t d d' spelled => spelled.not_numeral d'⟩
  · intro d spelled
    have no_numeral : literal? (Text.trim expression) = none :=
      literal?_eq_none_iff.2 fun q numeral => absurd numeral (spelled.not_numeral q)
    have rolled : evaluate expression s = (d.roll s).map .whole := by
      simp only [evaluate, no_numeral, dice?_eq_some_iff.2 spelled]
    rw [rolled]
    constructor
    · intro fits
      obtain ⟨shown, known, sum⟩ := roll_eq fits s
      exact ⟨shown, known, by rw [sum, Outcome.map_ok]⟩
    · intro excessive
      obtain ⟨after, e, refused, kind⟩ := roll_excessive excessive s
      exact ⟨after, e, by rw [refused, Outcome.map_error], kind⟩
  · intro d numeral small
    obtain ⟨negative, rank, finite⟩ := d.toBinary64_finite_iff.2 small
    obtain ⟨q, read, is⟩ := literal?_of_finite (parse?_eq_finite_iff.2 ⟨d, numeral, finite⟩)
    refine ⟨negative, rank, q, finite, d.toBinary64_meets.1 small, is, ?_⟩
    simp only [evaluate, read]
  · intro no_dice no_numeral
    have unread : dice? (Text.trim expression) = none := by
      cases read : dice? (Text.trim expression) with
      | none => rfl
      | some d => exact absurd (dice?_eq_some_iff.1 read) (no_dice d)
    simp only [evaluate, literal?_eq_none_iff.2 no_numeral, unread]

theorem smallDice_fit : ¬ Dice.Excessive ⟨['2'], ['6'], some (true, ['1'])⟩ := by
  intro excessive
  cases excessive with
  | count long | sides long => exact absurd long (by decide)
  | modifier given long =>
    cases given
    exact absurd long (by decide)
  | faces rolled many => exact absurd many (by decide +kernel)

theorem evaluate_language_of_each :
    Dice.Spelled (Text.trim " 2D6-1\n".toList) ⟨['2'], ['6'], some (true, ['1'])⟩ ∧
    evaluate " 2D6-1\n".toList half = ({ half with calls := 2 }, .ok (.whole 7)) ∧
    Decimal.Numeral (Text.trim " -2.50e1".toList) ⟨true, 250, -1⟩ ∧
    evaluate " -2.50e1".toList half = (half, .ok (.whole (-25))) ∧
    evaluate "2_0".toList half = (half, .ok (.whole 1)) := by
  have spelled : Dice.Spelled (Text.trim " 2D6-1\n".toList) ⟨['2'], ['6'], some (true, ['1'])⟩ :=
    dice?_eq_some_iff.1 (by decide +kernel)
  have trimmed : Text.trim " -2.50e1".toList = ['-'] ++ "2.50e1".toList := by decide +kernel
  have unsigned : Decimal.Unsigned true "2.50e1".toList ⟨true, 250, -1⟩ :=
    Decimal.ofBody?_eq_some_iff.1 rfl
  have numeral : Decimal.Numeral (Text.trim " -2.50e1".toList) ⟨true, 250, -1⟩ :=
    trimmed ▸ .spelled .minus unsigned
  have rounded : Decimal.toBinary64 ⟨true, 250, -1⟩ =
      .finite true ⟨0x4039000000000000, by decide⟩ := by decide +kernel
  refine ⟨spelled, ?_, numeral, ?_, ?_⟩
  · obtain ⟨shown, known, rolled⟩ :=
      ((evaluate_language " 2D6-1\n".toList half).1 _ spelled).1 smallDice_fit
    have three (i : Nat) : (half.values i).scale? (Text.toNat ['6']) = some 3 := by
      have same : half.values i = half.values 0 := by
        simp [half, Source.cycle, Nat.mod_one]
      rw [same]
      decide +kernel
    have first : shown 0 = 3 := Option.some.inj ((known 0 (by decide)).symm.trans (three _))
    have second : shown 1 = 3 := Option.some.inj ((known 1 (by decide)).symm.trans (three _))
    have sum : ((List.range 2).map fun i => shown i + 1).sum = 8 := by
      simp [List.range_succ, first, second]
    have number : Dice.number ⟨['2'], ['6'], some (true, ['1'])⟩ = 2 := rfl
    rw [number, sum] at rolled
    exact rolled
  · have small := (Decimal.toBinary64_finite_iff _).1 ⟨_, _, rounded⟩
    obtain ⟨negative, rank, q, finite, -, is, read⟩ :=
      (evaluate_language " -2.50e1".toList half).2.1 _ numeral small
    rw [rounded] at finite
    cases finite
    have whole : toRat true 0x4039000000000000 = (-25 : Int) :=
      (@toInt?_eq_some_iff true ⟨0x4039000000000000, by decide⟩ _).1 (by decide +kernel)
    rw [read]
    cases is with
    | whole same =>
      rw [Int.cast_inj.1 (same.symm.trans whole)]
    | fractional broken => exact absurd whole (broken (-25))
  · have no_dice : dice? (Text.trim "2_0".toList) = none := by decide +kernel
    have no_numeral : literal? (Text.trim "2_0".toList) = none := by decide +kernel
    apply (evaluate_language "2_0".toList half).2.2.1
    · intro d spelled
      rw [dice?_eq_some_iff.2 spelled] at no_dice
      cases no_dice
    · exact literal?_eq_none_iff.1 no_numeral

/- One die whose sides are a one and 309 zeros. -/
def vastDie : Text := "d1".toList ++ List.replicate 309 '0'

theorem vastDie_refused :
    Dice.Spelled (Text.trim vastDie) ⟨[], '1' :: List.replicate 309 '0', none⟩ ∧
      overflowBound ≤ Text.toNat ('1' :: List.replicate 309 '0') ∧
      (evaluate vastDie half).2 = .error .integerTooLarge ∧ (evaluate vastDie half).1.calls = 1 := by
  refine ⟨dice?_eq_some_iff.1 ?_, ?_, ?_, ?_⟩ <;> decide +kernel

end Weight

end DrawPile
