import DrawPile.Odds
import DrawPile.Proofs.Number.Rounding
import DrawPile.Proofs.Sample
import Mathlib.Algebra.BigOperators.Ring.Finset
import Mathlib.Algebra.Order.BigOperators.Group.List

/-! Charted odds and drawn odds. The chart of a deck rolls its dice as a draw does, and gives to
each entry its share of the places that a draw can fall on. -/
namespace DrawPile

theorem Item.total_eq_sum {α : Type} (items : List (Item α)) :
    total items = (items.map Item.weight).sum := by
  induction items with
  | nil => rfl
  | cons item items ih => rw [total, ih, List.map_cons, List.sum_cons]

theorem Item.weight_le_total {α : Type} {items : List (Item α)} {item : Item α}
    (member : item ∈ items) : item.weight ≤ total items := by
  rw [total_eq_sum]
  exact List.single_le_sum (fun _ _ => Nat.zero_le _) _ (List.mem_map_of_mem member)

/- The chart's rows, made from what a draw weighs. -/
def labelled (labelLength : Int) (index : Nat) (items : List (Item Text)) :
    List (Item (Nat × Text)) :=
  items.mapIdx fun i item =>
    ⟨(index + i, entryLabel (index + i : Nat) item.value labelLength), item.weight⟩

theorem labelEntries_eq (labelLength : Int) (index : Nat) (entries : List Text) (s : Source) :
    labelEntries labelLength index entries s =
      (weighEntries entries s).map (labelled labelLength index) := by
  induction entries generalizing index s with
  | nil => rfl
  | cons raw raws ih =>
    rw [labelEntries, weighEntries]
    rcases Weight.ofEntry (Entry.decode raw) s with ⟨between, error | weight⟩
    · rfl
    · rw [Outcome.andThen_ok, Outcome.andThen_ok, ih]
      rcases weighEntries raws between with ⟨after, error | items⟩
      · rfl
      · simp [labelled, List.mapIdx_cons, Entry.contentOf, Nat.add_assoc, Nat.add_comm 1]

theorem map_weight_labelled (labelLength : Int) (index : Nat) (items : List (Item Text)) :
    (labelled labelLength index items).map Item.weight = items.map Item.weight := by
  apply List.ext_getElem?
  intro place
  simp only [labelled, List.getElem?_map, List.getElem?_mapIdx, Option.map_map]
  rfl

def chartOf (labelLength : Int) (items : List (Item Text)) : List Slice :=
  (labelled labelLength 0 items).map (slice (Item.total items))

/- Whatever comes of the weighing: an error ends both, after the same calls. -/
theorem distribution_eq (entries : List Text) (labelLength : Int) (s : Source) :
    distribution entries labelLength s = (weighEntries entries s).map (chartOf labelLength) := by
  rw [distribution, labelEntries_eq]
  rcases weighEntries entries s with ⟨after, error | items⟩
  · rfl
  · have same : Item.total (labelled labelLength 0 items) = Item.total items := by
      rw [Item.total_eq_sum, Item.total_eq_sum, map_weight_labelled]
    simp only [Outcome.map_ok, same, chartOf]

theorem map_weight_chartOf (labelLength : Int) (items : List (Item Text)) :
    (chartOf labelLength items).map Slice.weight = items.map Item.weight := by
  rw [chartOf, List.map_map, ← map_weight_labelled labelLength 0]
  rfl

def slicesOf (content : Text) (entries : List Text) (chart : List Slice) : List Slice :=
  ((entries.zip chart).filter fun pair => Entry.contentOf pair.1 = content).map Prod.snd

theorem sum_slicesOf (content : Text) {entries : List Text} {items : List (Item Text)}
    {chart : List Slice} (contents : items.map Item.value = entries.map Entry.contentOf)
    (weights : chart.map Slice.weight = items.map Item.weight) :
    ((slicesOf content entries chart).map Slice.weight).sum =
      Item.total (items.filter fun item => item.value = content) := by
  induction items generalizing entries chart with
  | nil =>
    obtain rfl : chart = [] := List.map_eq_nil_iff.1 weights
    simp [slicesOf, Item.total]
  | cons item items ih =>
    obtain ⟨raw, raws, rfl, first, rest⟩ := List.map_eq_cons_iff.1 contents.symm
    obtain ⟨slice, slices, rfl, weight, others⟩ := List.map_eq_cons_iff.1 weights
    have sum := ih rest.symm others
    rw [slicesOf, List.map_map] at sum ⊢
    rw [List.zip_cons_cons, List.filter_cons, List.filter_cons, first]
    by_cases same : item.value = content
    · simp [same, weight, sum, Item.total]
    · simp [same, sum]

theorem chartOf_getElem? {labelLength : Int} {items : List (Item Text)} {place : Nat}
    {row : Slice} (there : (chartOf labelLength items)[place]? = some row) :
    ∃ item ∈ items, row = slice (Item.total items)
      ⟨(place, entryLabel place item.value labelLength), item.weight⟩ := by
  simp only [chartOf, labelled, List.getElem?_map, List.getElem?_mapIdx, Option.map_map,
    Option.map_eq_some_iff, Nat.zero_add] at there
  obtain ⟨item, found, rfl⟩ := there
  exact ⟨item, List.mem_of_getElem? found, rfl⟩

theorem sum_shares {items : List (Item Text)} (positive : 0 < Item.total items) :
    (items.map fun item => (item.weight : ℚ) / Item.total items).sum = 1 := by
  have nonzero : (Item.total items : ℚ) ≠ 0 := Nat.cast_ne_zero.2 positive.ne'
  have whole : (items.map fun item => (item.weight : ℚ)).sum = Item.total items := by
    rw [Item.total_eq_sum, Nat.cast_list_sum, List.map_map]
    rfl
  simp only [div_eq_mul_inv, List.sum_map_mul_right]
  rw [whole, mul_inv_cancel₀ nonzero]

/-- Charted odds are drawn odds. Where a deck can be weighed, its chart from the same state of the
source gives the same weights and leaves the source in the same state; a content is found at as
many places as the slices of its entries weigh; and each probability is the share of its weight,
rounded to the nearest float, shares that sum to one. -/
theorem distribution_odds {entries : List Text} {s after : Source} {items : List (Item Text)}
    (labelLength : Int) (weighed : weighEntries entries s = (after, .ok items)) :
    ∃ chart, distribution entries labelLength s = (after, .ok chart) ∧
      chart.map Slice.weight = items.map Item.weight ∧
      (∀ content fallback, ((List.range (Item.total items)).countP fun place =>
          decide ((Item.locate? place items).getD fallback = content)) =
        ((slicesOf content entries chart).map Slice.weight).sum) ∧
      (∀ place (row : Slice), chart[place]? = some row → row.index = place ∧
        row.probability.Nearest ((row.weight : ℚ) / Item.total items)) ∧
      (entries ≠ [] → (chart.map fun row => (row.weight : ℚ) / Item.total items).sum = 1) := by
  have meets := weighEntries_meets entries s
  rw [weighed] at meets
  obtain ⟨contents, positive⟩ := meets
  have weights := map_weight_chartOf labelLength items
  refine ⟨chartOf labelLength items, by rw [distribution_eq, weighed]; rfl, weights, ?_, ?_, ?_⟩
  · intro content fallback
    rw [Item.countP_locate?, sum_slicesOf content contents weights]
  · intro place row there
    obtain ⟨item, member, rfl⟩ := chartOf_getElem? there
    have lower := positive item member
    have upper := Item.weight_le_total member
    exact ⟨rfl, Binary64.ofRatio_nearest (Nat.lt_of_lt_of_le lower upper) upper⟩
  · intro nonempty
    -- Every weight is at least one, so a chart that is not empty has a sum to divide by.
    have some_item : items ≠ [] := by
      rintro rfl
      exact nonempty (List.map_eq_nil_iff.1 contents.symm)
    obtain ⟨item, member⟩ := List.exists_mem_of_ne_nil items some_item
    have total_pos := Nat.lt_of_lt_of_le (positive item member) (Item.weight_le_total member)
    have shares := sum_shares total_pos
    have same : (chartOf labelLength items).map (fun row => (row.weight : ℚ) / Item.total items) =
        items.map fun item => (item.weight : ℚ) / Item.total items := by
      have divided := congrArg (List.map fun weight : Nat => (weight : ℚ) / Item.total items) weights
      rwa [List.map_map, List.map_map] at divided
    rw [same, shares]

def mixed : List Text :=
  ["::2::a".toList, "::1d6::b".toList, "a".toList, "::many::b".toList]

def half : Source := .cycle #[⟨1022 * binade, by decide⟩]

theorem distribution_odds_of_mixed : ∃ items chart, (weighEntries mixed half).2 = .ok items ∧
    (distribution mixed 20 half).2 = .ok chart ∧ chart.map Slice.weight = [2, 4, 1, 1] ∧
    ((slicesOf "a".toList mixed chart).map Slice.weight).sum = 3 ∧
    (chart.map fun row => (row.weight : ℚ) / Item.total items).sum = 1 := by
  have result : (weighEntries mixed half).2 = .ok
      [⟨"a".toList, 2⟩, ⟨"b".toList, 4⟩, ⟨"a".toList, 1⟩, ⟨"b".toList, 1⟩] := by decide +kernel
  rcases weighed : weighEntries mixed half with ⟨after, outcome⟩
  rw [weighed] at result
  subst result
  obtain ⟨chart, charted, weights, places, -, shares⟩ := distribution_odds 20 weighed
  have found := places "a".toList "b".toList
  refine ⟨_, chart, rfl, congrArg Prod.snd charted, weights, ?_, shares (by decide)⟩
  rw [← found]
  decide +kernel

end DrawPile
