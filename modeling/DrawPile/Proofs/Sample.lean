import DrawPile.Sample
import DrawPile.Proofs.Outcome

/-! The walk along the weights. It is a look-up in the list in which every value stands as many
times as its item weighs. -/
namespace DrawPile

namespace Item
variable {α : Type}

/- Every value as many times as it weighs. -/
def expanded (items : List (Item α)) : List α :=
  items.flatMap fun item => List.replicate item.weight item.value

theorem expanded_cons (item : Item α) (items : List (Item α)) :
    expanded (item :: items) = List.replicate item.weight item.value ++ expanded items := rfl

theorem length_expanded (items : List (Item α)) : (expanded items).length = total items := by
  induction items with
  | nil => rfl
  | cons item items ih =>
    rw [expanded_cons, List.length_append, List.length_replicate, ih, total]

theorem length_le_total {items : List (Item α)} (positive : ∀ item ∈ items, 1 ≤ item.weight) :
    items.length ≤ total items := by
  induction items with
  | nil => exact Nat.le_refl 0
  | cons first rest ih =>
    obtain ⟨weighs, others⟩ := List.forall_mem_cons.1 positive
    have shorter := ih others
    rw [List.length_cons, total]
    omega

theorem locate?_eq_getElem? (items : List (Item α)) (place : Nat) :
    locate? place items = (expanded items)[place]? := by
  induction items generalizing place with
  | nil => simp [locate?, expanded]
  | cons item items ih =>
    rw [expanded_cons, locate?]
    by_cases inside : place < item.weight
    · rw [if_pos inside, List.getElem?_append_left (by simpa using inside)]
      simp [inside]
    · rw [if_neg inside, ih, List.getElem?_append_right (by simpa using inside),
        List.length_replicate]

theorem count_expanded [DecidableEq α] (items : List (Item α)) (value : α) :
    (expanded items).count value = total (items.filter fun item => item.value = value) := by
  induction items with
  | nil => rfl
  | cons item items ih =>
    rw [expanded_cons, List.count_append, List.count_replicate, ih, List.filter_cons]
    by_cases same : item.value = value <;> simp [same, total]

end Item

theorem countP_range_getD {α : Type} [DecidableEq α] (values : List α) (fallback value : α) :
    ((List.range values.length).countP fun place =>
      decide (values[place]?.getD fallback = value)) = values.count value := by
  induction values with
  | nil => rfl
  | cons first rest ih =>
    rw [List.length_cons, List.range_succ_eq_map, List.countP_cons, List.countP_map,
      List.count_cons, ← ih]
    rfl

/-- A value is found at as many places as its items weigh together; nothing is left for the value
that stands in where no item is found. -/
theorem Item.countP_locate? {α : Type} [DecidableEq α] (items : List (Item α))
    (fallback value : α) :
    ((List.range (total items)).countP fun place =>
      decide ((locate? place items).getD fallback = value)) =
      total (items.filter fun item => item.value = value) := by
  simp only [locate?_eq_getElem?]
  rw [← length_expanded, countP_range_getD, count_expanded]

theorem Weight.ofInt_pos (n : Int) : 1 ≤ Weight.ofInt n := by
  have least_eq : least = 1 := rfl
  have room : least ≤ greatest := by decide
  rw [ofInt]
  omega

theorem Weight.ofQuantity_pos (q : Weight.Quantity) : 1 ≤ Weight.ofQuantity q := by
  cases q with
  | whole n => exact ofInt_pos n
  | fractional x =>
    rw [ofQuantity, ofFloat]
    split
    · exact ofInt_pos _
    · exact Nat.le_refl 1

theorem Weight.ofEntry_pos {e : Entry} {s after : Source} {weight : Nat}
    (weighed : Weight.ofEntry e s = (after, .ok weight)) : 1 ≤ weight := by
  rw [ofEntry] at weighed
  cases expression : e.weight with
  | none =>
    rw [expression] at weighed
    cases weighed
    exact Nat.le_refl 1
  | some t =>
    simp only [expression] at weighed
    rcases evaluated : evaluate t s with ⟨between, error | quantity⟩
    · rw [evaluated] at weighed
      cases weighed
    · rw [evaluated] at weighed
      cases weighed
      exact ofQuantity_pos quantity

theorem weighEntries_meets (entries : List Text) (s : Source) :
    (weighEntries entries s).Meets
      (fun _ items => items.map Item.value = entries.map Entry.contentOf ∧
        ∀ item ∈ items, 1 ≤ item.weight)
      (fun _ _ => True) := by
  induction entries generalizing s with
  | nil => exact ⟨rfl, by simp⟩
  | cons raw raws ih =>
    rw [weighEntries]
    rcases weighed : Weight.ofEntry (Entry.decode raw) s with ⟨between, error | weight⟩
    · trivial
    · apply (ih between).map
      rintro after items ⟨contents, positive⟩
      refine ⟨by simp [contents], ?_⟩
      rw [List.forall_mem_cons]
      exact ⟨Weight.ofEntry_pos weighed, positive⟩

end DrawPile
