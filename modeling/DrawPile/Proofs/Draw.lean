import DrawPile.Proofs.Odds

/-! Weighted draws. The chance is spread over the whole numbers below the sum of the weights, and
each of them is a place of exactly one item that weighs anything. So a draw is a look-up in the
expanded list, and the value that stands in for a missing item is never drawn. -/
namespace DrawPile

theorem Binary64.ofInt?_natCast {n : Nat} {x : Binary64} (converted : ofInt? n = some x) :
    ∃ rank, x = .finite false rank := by
  have positive : ¬ (n : Int) < 0 := by omega
  unfold ofInt? rounded at converted
  by_cases inside : nearestRank (unitsInOne * (n : Int).natAbs) 1 < infinityRank
  · simp only [dif_pos inside, decide_eq_false positive] at converted
    cases converted
    exact ⟨_, rfl⟩
  · simp only [dif_neg inside] at converted
    cases converted

theorem Binary64.floor?_rounded_nonneg {num den : Nat} {m : Int}
    (floored : (rounded false num den).floor? = some m) : 0 ≤ m := by
  unfold rounded at floored
  split at floored
  · cases floored
    exact Int.ediv_nonneg (Int.natCast_nonneg _) (Int.natCast_nonneg _)
  · cases floored

/-- No chance scales a whole number to less than nothing. -/
theorem Chance.scale?_nonneg {c : Chance} {n : Nat} {m : Int} (scaled : c.scale? n = some m) :
    0 ≤ m := by
  obtain ⟨x, converted, floored⟩ := Option.bind_eq_some_iff.1 scaled
  obtain ⟨rank, rfl⟩ := Binary64.ofInt?_natCast converted
  exact Binary64.floor?_rounded_nonneg floored

namespace Item
variable {α : Type}

theorem total_append (front back : List (Item α)) :
    total (front ++ back) = total front + total back := by
  simp [total_eq_sum]

theorem total_of_split {items front back : List (Item α)} {item : Item α}
    (split : items = front ++ item :: back) :
    total items = total front + (item.weight + total back) := by
  rw [split, total_append, total]

/- The places of an item that comes after others. -/
def Covers (front : List (Item α)) (item : Item α) (place : Nat) : Prop :=
  total front ≤ place ∧ place < total front + item.weight

theorem locate?_of_covers {front back : List (Item α)} {item : Item α} {place : Nat}
    (covers : Covers front item place) :
    locate? place (front ++ item :: back) = some item.value := by
  induction front generalizing place with
  | nil =>
    have inside : place < item.weight := by simpa [Covers, total] using covers
    rw [List.nil_append, locate?, if_pos inside]
  | cons first front ih =>
    obtain ⟨lower, upper⟩ := covers
    rw [total] at lower upper
    have beyond : ¬ place < first.weight := by omega
    rw [List.cons_append, locate?, if_neg beyond]
    exact ih ⟨by omega, by omega⟩

theorem exists_covers {items : List (Item α)} {place : Nat} (below : place < total items) :
    ∃ front item back, items = front ++ item :: back ∧ Covers front item place := by
  induction items generalizing place with
  | nil => cases below
  | cons first rest ih =>
    rw [total] at below
    by_cases inside : place < first.weight
    · exact ⟨[], first, rest, rfl, Nat.zero_le _, by simpa [total] using inside⟩
    · obtain ⟨front, item, back, rfl, lower, upper⟩ := @ih (place - first.weight) (by omega)
      exact ⟨first :: front, item, back, rfl, by rw [total]; omega, by rw [total]; omega⟩

theorem draw_of_total_zero {items : List (Item α)} (nothing : total items = 0) (s : Source) :
    draw items s = (s, .error (.emptyPopulation [] none)) := by
  unfold draw
  cases items.getLast? with
  | none => rfl
  | some last => exact if_pos nothing

theorem draw_of_total_pos {items : List (Item α)} (positive : 0 < total items) (s : Source) :
    ∃ last, draw items s = (s.scaled (total items)).map fun n =>
      (locate? (min n.toNat (total items - 1)) items).getD last := by
  have nonempty : items ≠ [] := by
    rintro rfl
    cases positive
  refine ⟨(items.getLast nonempty).value, ?_⟩
  simp only [draw, List.getLast?_eq_getLast_of_ne_nil nonempty, if_neg positive.ne']

/-- An item is drawn where the scaled chance falls on one of its places. -/
theorem draw_of_covers {items front back : List (Item α)} {item : Item α}
    (split : items = front ++ item :: back) {s : Source} {n : Int}
    (scaled : (s.values s.calls).scale? (total items) = some n)
    (covers : Covers front item (min n.toNat (total items - 1))) :
    (draw items s).2 = .ok item.value := by
  have sum := total_of_split split
  have positive : 0 < total items := by
    obtain ⟨lower, upper⟩ := covers
    omega
  have found : locate? (min n.toNat (total items - 1)) items = some item.value := by
    generalize min n.toNat (total items - 1) = place at covers
    rw [split]
    exact locate?_of_covers covers
  obtain ⟨last, drawn⟩ := draw_of_total_pos positive s
  rw [drawn, Source.scaled_eq, scaled, Outcome.map_ok, found]
  rfl

theorem draw_meets (items : List (Item α)) (s : Source) :
    (draw items s).Meets (fun _ _ => 0 < total items)
      fun _ e => total items = 0 ∧ e = .emptyPopulation [] none ∨
        0 < total items ∧ e = .integerTooLarge := by
  rcases Nat.eq_zero_or_pos (total items) with nothing | positive
  · rw [draw_of_total_zero nothing]
    exact .inl ⟨nothing, rfl⟩
  · obtain ⟨last, drawn⟩ := draw_of_total_pos positive s
    rw [drawn, Source.scaled_eq]
    cases (s.values s.calls).scale? (total items) with
    | none => exact .inr ⟨positive, rfl⟩
    | some n => exact positive

theorem draw_empty_iff (items : List (Item α)) (s : Source) :
    (draw items s).2 = .error (.emptyPopulation [] none) ↔ total items = 0 := by
  constructor
  · intro refused
    rcases (draw_meets items s).failed refused with ⟨nothing, -⟩ | ⟨-, different⟩
    · exact nothing
    · cases different
  · intro nothing
    rw [draw_of_total_zero nothing]

/-- A weighted draw is a look-up in the list in which every value stands as many times as its item
weighs, at the floor of the scaled chance or at the last place. What stands there is an item that
weighs something and covers the place; every item that weighs something covers one; and there is
nothing to draw from exactly where the weights sum to zero. -/
theorem draw_eq_expanded {α : Type} (items : List (Item α)) (s : Source) :
    (∀ n, 0 < total items → (s.values s.calls).scale? (total items) = some n →
      ∃ (place : Nat) (front : List (Item α)) (item : Item α) (back : List (Item α)),
        (place : Int) = min n ((total items : Int) - 1) ∧
        draw items s = ({ s with calls := s.calls + 1 }, .ok item.value) ∧
        (expanded items)[place]? = some item.value ∧ locate? place items = some item.value ∧
        items = front ++ item :: back ∧ 0 < item.weight ∧ Covers front item place) ∧
    (∀ front item back, items = front ++ item :: back → 0 < item.weight →
      ∃ place, place < total items ∧ Covers front item place ∧
        locate? place items = some item.value) ∧
    ((draw items s).2 = .error (.emptyPopulation [] none) ↔ total items = 0) := by
  refine ⟨?_, ?_, draw_empty_iff items s⟩
  · intro n positive scaled
    have whole := Chance.scale?_nonneg scaled
    have below : min n.toNat (total items - 1) < total items := by omega
    obtain ⟨front, item, back, split, covers⟩ := exists_covers below
    have found : locate? (min n.toNat (total items - 1)) items = some item.value := by
      rw [split] at covers ⊢
      exact locate?_of_covers covers
    obtain ⟨last, drawn⟩ := draw_of_total_pos positive s
    rw [Source.scaled_eq, scaled, Outcome.map_ok, found] at drawn
    have weighs : 0 < item.weight := by
      obtain ⟨lower, upper⟩ := covers
      omega
    exact ⟨_, front, item, back, by omega, drawn, locate?_eq_getElem? items _ ▸ found, found, split,
      weighs, covers⟩
  · rintro front item back rfl weighs
    have covers : Covers front item (total front) := ⟨Nat.le_refl _, by omega⟩
    refine ⟨total front, ?_, covers, locate?_of_covers covers⟩
    rw [total_append, total]
    omega

def gapped : List (Item Text) :=
  [⟨"never".toList, 0⟩, ⟨"once".toList, 1⟩, ⟨"not".toList, 0⟩, ⟨"twice".toList, 2⟩,
    ⟨"nor".toList, 0⟩]

def ones : Source := .cycle #[⟨oneRank, Nat.le_refl _⟩]

theorem draw_eq_expanded_of_gapped :
    0 < total gapped ∧ (ones.values ones.calls).scale? (total gapped) = some 3 ∧
      (draw gapped ones).2 = .ok "twice".toList ∧ (draw gapped ones).1.calls = 1 ∧
      ∃ place, place < total gapped ∧ locate? place gapped = some "once".toList := by
  have positive : 0 < total gapped := by decide
  have scaled : (ones.values ones.calls).scale? (total gapped) = some 3 := by decide +kernel
  obtain ⟨at_place, covered, -⟩ := draw_eq_expanded gapped ones
  obtain ⟨place, front, item, back, last, drawn, there, -⟩ := at_place 3 positive scaled
  obtain rfl : place = 2 := by
    have sum : total gapped = 3 := rfl
    omega
  obtain ⟨once, below, -, found⟩ :=
    covered [⟨"never".toList, 0⟩] ⟨"once".toList, 1⟩ _ rfl Nat.one_pos
  refine ⟨positive, scaled, ?_, by rw [drawn]; rfl, once, below, found⟩
  rw [drawn]
  exact congrArg Except.ok (Option.some.inj there).symm

end Item

end DrawPile
