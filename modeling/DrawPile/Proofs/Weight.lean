import DrawPile.Proofs.Number.Overflow
import DrawPile.Proofs.Odds

/-! When weighing fails. A weight is in its range whatever the expression says, except that dice can
be too much: a number of too many digits is not read, and a die of more sides than the floats hold
is not rolled. Nothing else that an entry says can stop a chart or a draw. -/
namespace DrawPile

inductive Error.OfDice : Error → Prop
  | digits (count : Nat) : OfDice (.tooManyDigits count)
  | size : OfDice .integerTooLarge

theorem Source.scaled_meets (s : Source) (n : Int) :
    (s.scaled n).Meets (fun _ _ => n.natAbs < Binary64.overflowBound)
      fun _ e => Binary64.overflowBound ≤ n.natAbs ∧ e.OfDice := by
  have beyond := Chance.scale?_eq_none_iff (s.values s.calls) n
  rw [scaled_eq]
  cases product : (s.values s.calls).scale? n with
  | none => exact ⟨beyond.1 product, .size⟩
  | some m =>
    rw [product] at beyond
    exact Nat.lt_of_not_le fun large => nomatch beyond.2 large

namespace Weight

/-- Dice that cannot be rolled. -/
inductive Dice.Excessive (d : Dice) : Prop
  | count (long : Text.maxDigits < d.count.length)
  | sides (long : Text.maxDigits < d.sides.length)
  | modifier {negative : Bool} {digits : Text} (given : d.modifier = some (negative, digits))
      (long : Text.maxDigits < digits.length)
  | faces (rolled : d.count = [] ∨ 0 < Text.toNat d.count)
      (many : Binary64.overflowBound ≤ Text.toNat d.sides)

theorem readDigits_meets (s : Source) (digits : Text) :
    (Outcome.of s (readDigits digits)).Meets
      (fun _ n => digits.length ≤ Text.maxDigits ∧ n = Text.toNat digits)
      fun _ e => Text.maxDigits < digits.length ∧ e.OfDice := by
  unfold readDigits
  split
  · next long => exact ⟨long, .digits _⟩
  · next short => exact ⟨Nat.le_of_not_lt short, rfl⟩

def Dice.number (d : Dice) : Nat := if d.count = [] then 1 else Text.toNat d.count

theorem countOf_meets (s : Source) (d : Dice) :
    (Outcome.of s d.countOf).Meets
      (fun _ n => d.count.length ≤ Text.maxDigits ∧ n = d.number)
      fun _ e => Text.maxDigits < d.count.length ∧ e.OfDice := by
  unfold Dice.countOf Dice.number
  by_cases missing : d.count = []
  · simp [missing, Outcome.Meets]
  · simpa only [if_neg missing] using readDigits_meets s d.count

theorem modifierOf_meets (s : Source) (d : Dice) :
    (Outcome.of s d.modifierOf).Meets
      (fun _ _ => ∀ negative digits, d.modifier = some (negative, digits) →
        digits.length ≤ Text.maxDigits)
      fun _ e => (∃ negative digits, d.modifier = some (negative, digits) ∧
        Text.maxDigits < digits.length) ∧ e.OfDice := by
  unfold Dice.modifierOf readDigits
  rcases given : d.modifier with _ | ⟨negative, digits⟩
  · rintro _ _ ⟨⟩
  · by_cases long : Text.maxDigits < digits.length
    · simp only [if_pos long]
      exact ⟨⟨negative, digits, rfl, long⟩, .digits _⟩
    · simp only [if_neg long]
      rintro _ _ ⟨⟩
      exact Nat.le_of_not_lt long

theorem rollDice_meets (sides count : Nat) (sum : Int) (s : Source) :
    (rollDice sides count sum s).Meets
      (fun _ _ => 0 < count → sides < Binary64.overflowBound)
      fun _ e => (0 < count ∧ Binary64.overflowBound ≤ sides) ∧ e.OfDice := by
  induction count generalizing sum s with
  | zero =>
    intro impossible
    cases impossible
  | succ count ih =>
    apply (Source.scaled_meets s sides).map_known.andThen
    · intro after shown fits
      apply (ih (sum + shown) after).imp
      · intro _ _ _ _
        exact fits
      · rintro _ _ ⟨⟨-, many⟩, dice⟩
        exact ⟨⟨Nat.succ_pos count, many⟩, dice⟩
    · rintro _ _ ⟨many, dice⟩
      exact ⟨⟨Nat.succ_pos count, many⟩, dice⟩

theorem roll_meets (d : Dice) (s : Source) :
    (d.roll s).Meets (fun _ _ => ¬ d.Excessive) fun _ e => d.Excessive ∧ e.OfDice := by
  have rolled : d.number = if d.count = [] then 1 else Text.toNat d.count := rfl
  apply (countOf_meets s d).andThen
  · rintro s count ⟨count_short, rfl⟩
    apply (readDigits_meets s d.sides).andThen
    · rintro s sides ⟨sides_short, rfl⟩
      apply (modifierOf_meets s d).andThen
      · intro s modifier modifier_short
        have some_rolled : 0 < d.number ↔ d.count = [] ∨ 0 < Text.toNat d.count := by
          by_cases missing : d.count = [] <;> simp [rolled, missing]
        apply (rollDice_meets (Text.toNat d.sides) d.number 0 s).map_known.imp
        · intro _ _ fits excessive
          cases excessive with
          | count long => exact Nat.not_le_of_lt long count_short
          | sides long => exact Nat.not_le_of_lt long sides_short
          | modifier given long => exact Nat.not_le_of_lt long (modifier_short _ _ given)
          | faces rolled many => exact Nat.not_le_of_lt (fits (some_rolled.2 rolled)) many
        · rintro _ _ ⟨⟨positive, many⟩, dice⟩
          exact ⟨.faces (some_rolled.1 positive) many, dice⟩
      · rintro _ _ ⟨⟨negative, digits, given, long⟩, dice⟩
        exact ⟨.modifier given long, dice⟩
    · rintro _ _ ⟨long, dice⟩
      exact ⟨.sides long, dice⟩
  · rintro _ _ ⟨long, dice⟩
    exact ⟨.count long, dice⟩

/-- An expression that is no numeral but dice that cannot be rolled. -/
def Unreadable (expression : Text) : Prop :=
  literal? (Text.trim expression) = none ∧
    ∃ d, dice? (Text.trim expression) = some d ∧ d.Excessive

theorem evaluate_meets (expression : Text) (s : Source) :
    (evaluate expression s).Meets (fun _ _ => ¬ Unreadable expression)
      fun _ e => Unreadable expression ∧ e.OfDice := by
  unfold evaluate Unreadable
  cases numeral : literal? (Text.trim expression) with
  | some q =>
    simp only [numeral]
    rintro ⟨impossible, -⟩
    cases impossible
  | none =>
    cases dice : dice? (Text.trim expression) with
    | none =>
      simp only [numeral, dice]
      rintro ⟨-, d, impossible, -⟩
      cases impossible
    | some d =>
      simp only [numeral, dice]
      apply (roll_meets d s).map_known.imp
      · rintro _ _ rolled ⟨-, d', same, excessive⟩
        cases same
        exact rolled excessive
      · rintro _ _ ⟨excessive, dice⟩
        exact ⟨⟨trivial, d, rfl, excessive⟩, dice⟩

theorem ofInt_le (n : Int) : ofInt n ≤ greatest := by
  rw [ofInt]
  omega

theorem ofQuantity_le (q : Quantity) : ofQuantity q ≤ greatest := by
  cases q with
  | whole n => exact ofInt_le n
  | fractional x =>
    rw [ofQuantity, ofFloat]
    split
    · exact ofInt_le _
    · decide

end Weight

/-- An entry whose weight, if it has one, is no expression of dice that cannot be rolled. -/
def Entry.Weighable (e : Entry) : Prop :=
  ∀ expression, e.weight = some expression → ¬ Weight.Unreadable expression

theorem Weight.ofEntry_meets (e : Entry) (s : Source) :
    (ofEntry e s).Meets
      (fun _ weight => e.Weighable ∧ least ≤ weight ∧ weight ≤ greatest)
      fun _ _ => ¬ e.Weighable := by
  unfold ofEntry Entry.Weighable
  cases given : e.weight with
  | none => exact ⟨nofun, Nat.le_refl _, by decide⟩
  | some expression =>
    have same : (∀ t, some expression = some t → ¬ Unreadable t) ↔ ¬ Unreadable expression := by
      simp
    simp only [same, not_not]
    apply (evaluate_meets expression s).andThen
    · intro _ q read
      exact ⟨read, ofQuantity_pos q, ofQuantity_le q⟩
    · rintro _ _ ⟨unread, -⟩
      exact unread

def Weighable (entries : List Text) : Prop := ∀ raw ∈ entries, (Entry.decode raw).Weighable

theorem weighEntries_weighable (entries : List Text) (s : Source) :
    (weighEntries entries s).Meets
      (fun _ items => Weighable entries ∧
        ∀ item ∈ items, Weight.least ≤ item.weight ∧ item.weight ≤ Weight.greatest)
      fun _ _ => ¬ Weighable entries := by
  induction entries generalizing s with
  | nil => exact ⟨nofun, nofun⟩
  | cons raw raws ih =>
    apply (Weight.ofEntry_meets (Entry.decode raw) s).andThen
    · rintro between weight ⟨weighed, range⟩
      apply (ih between).andThen
      · rintro _ items ⟨others, ranges⟩
        exact ⟨List.forall_mem_cons.2 ⟨weighed, others⟩, List.forall_mem_cons.2 ⟨range, ranges⟩⟩
      · intro _ _ stopped all
        exact stopped (List.forall_mem_cons.1 all).2
    · intro _ _ stopped all
      exact stopped (List.forall_mem_cons.1 all).1

theorem Weight.ofEntry_failsOnly (e : Entry) (s : Source) :
    (ofEntry e s).FailsOnly Error.OfDice := by
  unfold ofEntry
  split
  · trivial
  · next expression _ =>
    apply (evaluate_meets expression s).andThen
    · intro _ _ _
      trivial
    · rintro _ _ ⟨-, dice⟩
      exact dice

/-- Weighing fails for nothing but dice. -/
theorem weighEntries_failsOnly (entries : List Text) (s : Source) :
    (weighEntries entries s).FailsOnly Error.OfDice := by
  induction entries generalizing s with
  | nil => trivial
  | cons raw raws ih =>
    apply (Weight.ofEntry_failsOnly (Entry.decode raw) s).andThen
    intro s weight
    exact (ih s).map

theorem distribution_weighable (entries : List Text) (labelLength : Int) (s : Source) :
    (distribution entries labelLength s).Meets
      (fun _ chart => Weighable entries ∧
        ∀ row ∈ chart, Weight.least ≤ row.weight ∧ row.weight ≤ Weight.greatest)
      fun _ _ => ¬ Weighable entries := by
  rw [distribution_eq]
  apply (weighEntries_weighable entries s).map
  rintro _ items ⟨weighable, ranges⟩
  refine ⟨weighable, ?_⟩
  intro row charted
  have weight : row.weight ∈ items.map Item.weight := by
    rw [← map_weight_chartOf labelLength]
    exact List.mem_map_of_mem charted
  obtain ⟨item, member, same⟩ := List.mem_map.1 weight
  rw [← same]
  exact ranges item member

/-- Weighing an entry gives a weight in the range, whatever the source gives, unless the entry asks
for dice that cannot be rolled; a deck can be weighed for a draw, and charted, exactly if each of
its entries can be weighed. -/
theorem weighing_succeeds_iff (raw : Text) (entries : List Text) (labelLength : Int) (s : Source) :
    ((∃ after weight, Weight.ofEntry (Entry.decode raw) s = (after, .ok weight) ∧
      Weight.least ≤ weight ∧ weight ≤ Weight.greatest) ↔ (Entry.decode raw).Weighable) ∧
    ((∃ after items, weighEntries entries s = (after, .ok items) ∧
      ∀ item ∈ items, Weight.least ≤ item.weight ∧ item.weight ≤ Weight.greatest) ↔
        Weighable entries) ∧
    ((∃ after chart, distribution entries labelLength s = (after, .ok chart) ∧
      ∀ row ∈ chart, Weight.least ≤ row.weight ∧ row.weight ≤ Weight.greatest) ↔
        Weighable entries) := by
  refine ⟨?_, ?_, ?_⟩
  · exact (Weight.ofEntry_meets (Entry.decode raw) s).returns_iff
  · exact (weighEntries_weighable entries s).returns_iff
  · exact (distribution_weighable entries labelLength s).returns_iff

/- One die with more sides than the floats hold: a one and 309 zeros. -/
def greatDie : Text := "::d1".toList ++ List.replicate 309 '0' ++ "::x".toList

theorem greatDie_stops_weighing :
    (Weight.ofEntry (Entry.decode greatDie) half).2 = .error .integerTooLarge := by
  decide +kernel

end DrawPile
