import DrawPile.Proofs.Catalog.Merge
import Mathlib.Data.List.Perm.Basic

/-! A catalog of distinct names is known by their order and by what is found under each. What is
found does not depend on the order. -/
namespace DrawPile.Catalog
variable {β : Type}

theorem mem_of_get? {c : Catalog β} {name : Text} {v : β} (found : c.get? name = some v) :
    (name, v) ∈ c := by
  obtain ⟨front, back, rfl, -⟩ := split_of_get? found
  exact List.mem_append_right front List.mem_cons_self

theorem get?_eq_some_iff {c : Catalog β} {name : Text} {v : β} (distinct : c.names.Nodup) :
    c.get? name = some v ↔ (name, v) ∈ c :=
  ⟨mem_of_get?, get?_of_mem distinct⟩

theorem get?_of_perm {c d : Catalog β} (distinct : c.names.Nodup) (same : c.Perm d) (name : Text) :
    d.get? name = c.get? name := by
  have distinct_after : d.names.Nodup := (same.map _).nodup_iff.1 distinct
  apply Option.ext
  intro v
  simp only [get?_eq_some_iff distinct, get?_eq_some_iff distinct_after, same.mem_iff]

theorem eq_of_get? {c d : Catalog β} (distinct : c.names.Nodup) (order : d.names = c.names)
    (found : ∀ name, d.get? name = c.get? name) : d = c := by
  induction c generalizing d with
  | nil => exact List.map_eq_nil_iff.1 order
  | cons e c ih =>
    cases d with
    | nil => cases order
    | cons e' d =>
      obtain ⟨same_name, same_names⟩ : e'.1 = e.1 ∧ names d = names c := List.cons.inj order
      rw [names_cons, List.nodup_cons] at distinct
      have same_value : e'.2 = e.2 := by
        have here := found e.1
        simpa [get?, same_name] using here
      have rest : ∀ name, get? name d = get? name c := by
        intro name
        by_cases first : e.1 = name
        · have absent : name ∉ names c := first ▸ distinct.1
          have absent' : name ∉ names d := same_names ▸ absent
          rw [get?_eq_none_iff.2 absent, get?_eq_none_iff.2 absent']
        · have here := found name
          simpa [get?, same_name, first] using here
      rw [Prod.ext same_name same_value, ih distinct.2 same_names rest]

end DrawPile.Catalog
