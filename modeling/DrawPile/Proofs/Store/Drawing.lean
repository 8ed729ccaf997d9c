import DrawPile.Proofs.Draw
import DrawPile.Proofs.Number.Spacing
import DrawPile.Proofs.Store.Step
import DrawPile.Proofs.Weight

/-! Drawing from a deck. Only where a deck is missing or has no entries is there nothing to draw
from: every entry that is weighed weighs something, and references without entries are given a
diagnostic. Each entry has its places along the weights; but the places are asked for by floats, and
where the weights sum to more than the floats tell apart, some of them are never asked for. -/
namespace DrawPile

inductive Error.Starved : Error → Prop
  | population (wording : Text) (deck : Option Text) : Starved (.emptyPopulation wording deck)

theorem Error.OfDice.not_starved {e : Error} (dice : e.OfDice) : ¬ e.Starved := by
  cases dice <;> rintro ⟨⟩

namespace Item

/-- Some chance draws an item, whatever else the source gives, unless the item weighs less than a
part in 2^51 of the sum. -/
theorem exists_chance_drawing {α : Type} {items front back : List (Item α)} {item : Item α}
    (split : items = front ++ item :: back) (positive : 0 < item.weight)
    (small : total items < Binary64.overflowBound) (heavy : total items ≤ 2 ^ 51 * item.weight) :
    ∃ c : Chance, ∀ s : Source, s.values s.calls = c → (draw items s).2 = .ok item.value := by
  have sum := total_of_split split
  have inside : total front + item.weight ≤ total items := by omega
  obtain ⟨c, n, scaled, lower, upper⟩ := Chance.exists_scale?_within positive inside small heavy
  refine ⟨c, ?_⟩
  rintro s rfl
  apply draw_of_covers split scaled
  have uncut : min (n : Int).toNat (total items - 1) = n := by omega
  rw [uncut]
  exact ⟨lower, upper⟩

end Item

theorem drawEntry_failsOnly (entries : List Text) (deck : Option Text) (s : Source) :
    (drawEntry entries deck s).FailsOnly fun e => entries = [] ∧ e.Starved ∨ e.OfDice := by
  by_cases nothing : entries = []
  · rw [drawEntry, if_pos nothing]
    exact .inl ⟨nothing, .population [] deck⟩
  · have contents := weighEntries_meets entries s
    have dice := weighEntries_failsOnly entries s
    rw [drawEntry, if_neg nothing]
    generalize weighEntries entries s = weighed at *
    obtain ⟨after, e | items⟩ := weighed
    · exact .inr dice
    · obtain ⟨values, weighs⟩ := contents
      have nonempty : 0 < items.length := by
        rw [← List.length_map (f := Item.value), values, List.length_map]
        exact List.length_pos_iff.2 nothing
      have enough := Item.length_le_total weighs
      apply (Item.draw_meets items after).imp (fun _ _ _ => trivial)
      rintro _ e (⟨weightless, -⟩ | ⟨-, rfl⟩)
      · omega
      · exact .inr .size

namespace Store

theorem observer_failsOnly (removal : Removal) (a : Audience) :
    (observer removal a).FailsOnly fun e => ∃ id, e = .listener id := by
  have answer := Audience.announce_snd a ⟨.consumed, removal.deck⟩
  unfold observer
  generalize a.announce ⟨.consumed, removal.deck⟩ = told at *
  obtain ⟨after, e | u⟩ := told
  · unfold Audience.answer at answer
    split at answer
    · cases answer
      exact ⟨_, rfl⟩
    · cases answer
  · trivial

inductive ResolveFails (s : Store) : Error → Prop
  | limits {e : Error}
      (refused : Reference.Limits.ofInts? s.settings.maxDepth s.settings.maxDraws = .error e) :
      ResolveFails s e
  | unfinished (pass : Int) (text : Text) (draws : Option Int) :
      ResolveFails s (.unfinished pass text draws)
  | listener (id : Text) : ResolveFails s (.listener id)

inductive DrawFails (s : Store) (name : Text) : Error → Prop
  | starved {e : Error} (nothing : s.entries name = []) (starved : e.Starved) : DrawFails s name e
  | dice {e : Error} (dice : e.OfDice) : DrawFails s name e
  | resolving {e : Error} (fails : s.ResolveFails e) : DrawFails s name e

theorem resolve_failsOnly (s : Store) (text : Text) : (s.resolve text).FailsOnly s.ResolveFails := by
  unfold resolve
  cases known : Reference.Limits.ofInts? s.settings.maxDepth s.settings.maxDraws with
  | error e => exact .limits known
  | ok limits =>
    have heard (removal : Removal) (a : Audience) :
        (observer removal a).FailsOnly s.ResolveFails :=
      (observer_failsOnly removal a).imp (fun _ _ _ => trivial) fun _ _ ⟨id, same⟩ =>
        same ▸ .listener id
    have resolved := Reference.resolve_failsOnly (t := s.toTable) heard .unfinished limits text
    rw [Outcome.of_ok, Outcome.andThen_ok]
    generalize Reference.resolve limits observer text s.toTable = o at *
    obtain ⟨table, e | settled⟩ := o
    · exact resolved
    · trivial

theorem draw_of_entries_nil {s : Store} {name : Text} (missing : s.entries name = []) :
    s.draw name = (s, .error (.emptyPopulation [] (some name))) := by
  rw [draw, missing]

theorem draw_of_stocked {s : Store} {name : Text} (stocked : s.entries name ≠ []) :
    s.draw name = (Outcome.of
      { s with source := (drawEntry (s.entries name) (some name) s.source).1 }
      (drawEntry (s.entries name) (some name) s.source).2).andThen
        fun t content => t.resolve content := by
  unfold draw
  split
  · next missing => exact absurd missing stocked
  · rfl

theorem draw_failsOnly (s : Store) (name : Text) : (s.draw name).FailsOnly (s.DrawFails name) := by
  by_cases missing : s.entries name = []
  · rw [draw_of_entries_nil missing]
    exact .starved missing (.population [] (some name))
  · have drawn := drawEntry_failsOnly (s.entries name) (some name) s.source
    rw [draw_of_stocked missing]
    generalize drawEntry (s.entries name) (some name) s.source = o at *
    obtain ⟨source, e | content⟩ := o
    · rcases drawn with ⟨nothing, -⟩ | dice
      · exact absurd nothing missing
      · exact .dice dice
    · have resolved := resolve_failsOnly { s with source } content
      apply resolved.imp (fun _ _ _ => trivial)
      intro _ e fails
      cases fails with
      | limits refused => exact .resolving (.limits refused)
      | unfinished => exact .resolving (.unfinished ..)
      | listener => exact .resolving (.listener _)

theorem ResolveFails.not_starved {s : Store} {e : Error} (fails : s.ResolveFails e) :
    ¬ e.Starved := by
  cases fails with
  | limits refused =>
    unfold Reference.Limits.ofInts? at refused
    split_ifs at refused <;> cases refused <;> rintro ⟨⟩
  | unfinished | listener => rintro ⟨⟩

/-- Only a deck without entries has nothing to draw from. -/
theorem DrawFails.nothing {s : Store} {name : Text} {e : Error} (fails : s.DrawFails name e)
    (starved : e.Starved) :
    s.entries name = [] := by
  cases fails with
  | starved nothing => exact nothing
  | dice dice => exact absurd starved dice.not_starved
  | resolving fails => exact absurd starved fails.not_starved

theorem entries_eq_nil_iff (s : Store) (name : Text) :
    s.entries name = [] ↔ s.decks.get? name = none ∨ s.decks.get? name = some [] := by
  rw [Table.entries]
  cases s.decks.get? name <;> simp

theorem step_draw_starved_iff (s : Store) (name : Text) :
    (∃ wording deck, (s.step (.draw name)).2 = .error (.emptyPopulation wording deck)) ↔
      s.decks.get? name = none ∨ s.decks.get? name = some [] := by
  have fresh : s.freshRecord.entries name = s.entries name := rfl
  rw [← entries_eq_nil_iff, ← fresh]
  constructor
  · rintro ⟨wording, deck, starved⟩
    have fails := (draw_failsOnly s.freshRecord name).map (f := Reply.text)
    exact (fails.failed starved).nothing (.population wording deck)
  · intro missing
    refine ⟨[], some name, ?_⟩
    rw [step, perform, draw_of_entries_nil missing]
    rfl

/-- Drawing is refused for want of entries exactly where a deck is missing or has none, and then
nothing is changed and no chance asked for. Where entries can be weighed, the weights are in their
range, so that they sum to no less than the number of entries: each entry has places, and is drawn
where the scaled chance falls on one of them. Some chance does, unless the entry weighs less than a
part in 2^51 of all. -/
theorem draw_starves_only_empty_decks (s : Store) (name : Text) :
    ((∃ wording deck, (s.step (.draw name)).2 = .error (.emptyPopulation wording deck)) ↔
      s.decks.get? name = none ∨ s.decks.get? name = some []) ∧
    (s.decks.get? name = none ∨ s.decks.get? name = some [] →
      s.step (.draw name) = (s.freshRecord, .error (.emptyPopulation [] (some name)))) ∧
    ∀ (entries : List Text) (source after : Source) (items : List (Item Text)),
      weighEntries entries source = (after, .ok items) →
        items.map Item.value = entries.map Entry.contentOf ∧
        (∀ item ∈ items, Weight.least ≤ item.weight ∧ item.weight ≤ Weight.greatest) ∧
        entries.length ≤ Item.total items ∧
        ∀ front item back, items = front ++ item :: back →
          (∃ place, place < Item.total items ∧ Item.Covers front item place) ∧
          (∀ (t : Source) (n : Int), (t.values t.calls).scale? (Item.total items) = some n →
            Item.Covers front item (min n.toNat (Item.total items - 1)) →
            (Item.draw items t).2 = .ok item.value) ∧
          (Item.total items ≤ 2 ^ 51 * item.weight →
            ∃ c : Chance, ∀ t : Source, t.values t.calls = c →
              (Item.draw items t).2 = .ok item.value) := by
  refine ⟨step_draw_starved_iff s name, ?_, ?_⟩
  · intro missing
    have fresh : s.freshRecord.entries name = [] := (entries_eq_nil_iff s name).2 missing
    rw [step, perform, draw_of_entries_nil fresh, Outcome.map_error]
  · intro entries source after items weighed
    have returned : (weighEntries entries source).2 = .ok items := by rw [weighed]
    obtain ⟨values, positive⟩ := (weighEntries_meets entries source).returned returned
    obtain ⟨-, ranges⟩ := (weighEntries_weighable entries source).returned returned
    have as_many : entries.length = items.length := by
      rw [← List.length_map (f := Item.value), values, List.length_map]
    refine ⟨values, ranges, as_many ▸ Item.length_le_total positive, ?_⟩
    intro front item back split
    have member : item ∈ items := split ▸ List.mem_append_right front List.mem_cons_self
    have weighs : 0 < item.weight := positive item member
    refine ⟨?_, fun t n => Item.draw_of_covers split, ?_⟩
    · have sum := Item.total_of_split split
      exact ⟨Item.total front, by omega, Nat.le_refl _, by omega⟩
    · intro heavy
      have bounded : 2 ^ 51 * Weight.greatest < Binary64.overflowBound := by decide +kernel
      have scaled : 2 ^ 51 * item.weight ≤ 2 ^ 51 * Weight.greatest :=
        Nat.mul_le_mul_left _ (ranges item member).2
      exact Item.exists_chance_drawing split weighs (by omega) heavy

/- Weights below and above the range, one with a fraction, and dice. -/
def varied : List Text :=
  ["::-3::less".toList, "::0::nothing".toList, "::2.5::half".toList, "::2d6+1::dice".toList,
    "::1e30::much".toList, "plain".toList]

def variedItems : List (Item Text) :=
  [⟨"less".toList, 1⟩, ⟨"nothing".toList, 1⟩, ⟨"half".toList, 3⟩, ⟨"dice".toList, 9⟩,
    ⟨"much".toList, Weight.greatest⟩, ⟨"plain".toList, 1⟩]

theorem draw_starves_only_empty_decks_of_varied :
    underscored.step (.draw "_a".toList) =
      (underscored.freshRecord, .error (.emptyPopulation [] (some "_a".toList))) ∧
    (weighEntries varied half).2 = .ok variedItems ∧ varied.length ≤ Item.total variedItems ∧
    Item.total variedItems ≤ 2 ^ 51 * Weight.greatest ∧
    ∃ c : Chance, ∀ t : Source, t.values t.calls = c →
      (Item.draw variedItems t).2 = .ok "much".toList := by
  obtain ⟨-, starved, weighing⟩ := draw_starves_only_empty_decks underscored "_a".toList
  have result : (weighEntries varied half).2 = .ok variedItems := by decide +kernel
  have heavy : Item.total variedItems ≤ 2 ^ 51 * Weight.greatest := by decide +kernel
  obtain ⟨-, -, enough, drawn⟩ :=
    weighing varied half (weighEntries varied half).1 variedItems (Prod.ext rfl result)
  refine ⟨starved (.inr rfl), result, enough, heavy, ?_⟩
  exact (drawn (variedItems.take 4) _ _ rfl).2.2 heavy

section Lopsided
open Binary64

/- One of the least weights between two of the greatest, before any source. -/
def lopsided (source : Source) : Store where
  decks := [("d".toList, ["::9223372036854775807::a".toList, "b".toList,
    "::9223372036854775807::c".toList])]
  source := source
  host := {}

def lopsidedItems : List (Item Text) :=
  [⟨"a".toList, Weight.greatest⟩, ⟨"b".toList, 1⟩, ⟨"c".toList, Weight.greatest⟩]

theorem lopsided_reachable (source : Source) : Reachable (lopsided source) := by
  have valid : Settings.ofCatalog [] = .ok {} := rfl
  have distinct : Name.Distinct ["d".toList] := by decide
  exact .built valid (@ofJson_toJson (lopsided source).decks distinct {} source)

theorem weighEntries_lopsided (s : Source) :
    weighEntries ((lopsided s).entries "d".toList) s = (s, .ok lopsidedItems) := by
  have numeral : Weight.literal? (Text.trim "9223372036854775807".toList) =
      some (.whole 0x8000000000000000) := by
    decide +kernel
  have heavy (content : Text) :
      Weight.ofEntry ⟨some "9223372036854775807".toList, content⟩ s = (s, .ok Weight.greatest) := by
    simp only [Weight.ofEntry, Weight.evaluate, numeral]
    rfl
  have first : Entry.decode "::9223372036854775807::a".toList =
      ⟨some "9223372036854775807".toList, "a".toList⟩ := by decide +kernel
  have last : Entry.decode "::9223372036854775807::c".toList =
      ⟨some "9223372036854775807".toList, "c".toList⟩ := by decide +kernel
  have entries : (lopsided s).entries "d".toList = ["::9223372036854775807::a".toList,
      "b".toList, "::9223372036854775807::c".toList] := rfl
  have middle : Weight.ofEntry (Entry.decode "b".toList) s = (s, .ok 1) := rfl
  rw [entries]
  simp only [weighEntries, first, heavy, middle, last, Outcome.andThen_ok, Outcome.map_ok,
    Entry.contentOf]
  rfl

/-- The sum is rounded to 2^64, of which the chances below a half and from a half on leave out the
place in the middle. -/
theorem scale?_lopsided (c : Chance) :
    ∃ n : Nat, c.scale? (Item.total lopsidedItems) = some (n : Int) ∧
      (n < Weight.greatest ∨ Weight.greatest < n) := by
  have total : Item.total lopsidedItems = 0xffffffffffffffff := by decide +kernel
  have small : Item.total lopsidedItems < overflowBound := by decide +kernel
  have power : nearestRank (unitsInOne * 0xffffffffffffffff) 1 =
      1087 * binade := by decide +kernel
  refine ⟨_, c.scale?_natCast small, ?_⟩
  rw [total, power]
  rcases Nat.lt_or_ge c.rank (1022 * binade) with below | above
  · left
    have most : units (1022 * binade - 1) * units (1087 * binade) ≤
        units (1086 * binade - 1) * unitsInOne := by decide +kernel
    have short : units (1086 * binade - 1) <
        Weight.greatest * unitsInOne := by decide +kernel
    have part : units c.rank ≤ units (1022 * binade - 1) :=
      units_strictMono.monotone (by omega)
    have product := Nat.le_trans (Nat.mul_le_mul_right (units (1087 * binade)) part) most
    have rounded := units_strictMono.monotone
      (nearestRank_le unitsInOne_pos product)
    exact (Nat.div_lt_iff_lt_mul unitsInOne_pos).2 (Nat.lt_of_le_of_lt rounded short)
  · right
    have least : units (1086 * binade) * unitsInOne ≤
        units (1022 * binade) * units (1087 * binade) := by decide +kernel
    have long : (Weight.greatest + 1) * unitsInOne ≤
        units (1086 * binade) := by decide +kernel
    have part : units (1022 * binade) ≤ units c.rank :=
      units_strictMono.monotone above
    have product := Nat.le_trans least (Nat.mul_le_mul_right (units (1087 * binade)) part)
    have rounded := units_strictMono.monotone
      (le_nearestRank unitsInOne_pos product)
    exact (Nat.le_div_iff_mul_le unitsInOne_pos).2 (Nat.le_trans long rounded)

theorem draw_lopsidedItems (s : Source) :
    (Item.draw lopsidedItems s).2 = .ok "a".toList ∨
      (Item.draw lopsidedItems s).2 = .ok "c".toList := by
  have total : Item.total lopsidedItems = 0xffffffffffffffff := by decide +kernel
  have greatest : Weight.greatest = 0x7fffffffffffffff := rfl
  have front : Item.total (lopsidedItems.take 2) = 0x8000000000000000 := by decide +kernel
  obtain ⟨n, scaled, below | above⟩ := scale?_lopsided (s.values s.calls)
  · left
    have split : lopsidedItems = [] ++ ⟨"a".toList, Weight.greatest⟩ :: lopsidedItems.drop 1 := rfl
    apply Item.draw_of_covers split scaled
    rw [total]
    constructor
    · exact Nat.zero_le _
    · rw [Item.total]
      dsimp only
      omega
  · right
    have split : lopsidedItems = lopsidedItems.take 2 ++ [⟨"c".toList, Weight.greatest⟩] := rfl
    apply Item.draw_of_covers split scaled
    rw [total]
    constructor
    · rw [front]
      omega
    · rw [front]
      dsimp only
      omega

/-- The deck can be weighed, and whatever source it is drawn with, the entry in the middle is never
drawn. -/
theorem lopsided_never_draws_middle :
    (∀ s, Reachable (lopsided s)) ∧
    (∀ s, weighEntries ((lopsided s).entries "d".toList) s = (s, .ok lopsidedItems)) ∧
    ∀ s, ((lopsided s).step (.draw "d".toList)).2 = .ok (.text "a".toList) ∨
      ((lopsided s).step (.draw "d".toList)).2 = .ok (.text "c".toList) := by
  refine ⟨lopsided_reachable, weighEntries_lopsided, ?_⟩
  intro s
  have fresh : (lopsided s).freshRecord.entries "d".toList = (lopsided s).entries "d".toList := rfl
  have stocked : (lopsided s).entries "d".toList ≠ [] := List.cons_ne_nil _ _
  have asked : (lopsided s).freshRecord.source = s := rfl
  have entered : drawEntry ((lopsided s).entries "d".toList) (some "d".toList) s =
      Item.draw lopsidedItems s := by
    rw [drawEntry, if_neg stocked, weighEntries_lopsided, Outcome.andThen_ok]
  rw [step, perform, draw_of_stocked (fresh ▸ stocked), fresh, asked, entered]
  rcases draw_lopsidedItems s with drawn | drawn <;> rw [drawn]
  · exact .inl rfl
  · exact .inr rfl

end Lopsided

end Store

end DrawPile
