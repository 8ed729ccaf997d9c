import DrawPile.Proofs.Store.Step
import DrawPile.Proofs.Text.Case

/-! The search for decks by a keyword. It compares small letters, and these hang on what stands around
a letter in one case: a capital sigma. A deck whose name has the keyword in it is found if the sigmas of
the keyword take the same forms in the name as for themselves; where they do not, it can be missed. -/
namespace DrawPile

namespace Store

theorem mem_search_iff {s : Store} {keyword name : Text} :
    name ∈ s.search keyword ↔
      name ∈ s.names ∧ Text.lower keyword <:+: Text.lower (Name.base name) := by
  by_cases blank : keyword = []
  · subst blank
    simp [search, Text.lower, Text.lowerFrom]
  · rw [search, if_neg blank, List.mem_filter, Text.hasPart_iff]

theorem search_sublist (s : Store) (keyword : Text) : (s.search keyword).Sublist s.names := by
  rw [search]
  split
  · exact List.Sublist.refl _
  · exact List.filter_sublist

theorem mem_search_of_keeps {s : Store} {keyword name front back : Text} (there : name ∈ s.names)
    (split : Name.base name = front ++ keyword ++ back)
    (keeps : Text.KeepsSigmas front back keyword) : name ∈ s.search keyword := by
  refine mem_search_iff.2 ⟨there, ?_⟩
  rw [split, Text.lower_append_append, ← Text.keepsSigmas_iff.1 keeps]
  exact List.infix_append _ _ _

/-- What is found are decks of the store, in their order and each once. A deck whose display name has
the keyword in it is found if each capital sigma of the keyword takes the same form there as in the
keyword, so always if the keyword has none or has characters that are not passed over on both sides
of each. -/
theorem search_misses_by_sigma {s : Store} (reachable : Reachable s) (keyword : Text) :
    (s.search keyword).Sublist s.names ∧ (s.search keyword).Nodup ∧
    (∀ name, name ∈ s.search keyword ↔
      name ∈ s.names ∧ Text.lower keyword <:+: Text.lower (Name.base name)) ∧
    (∀ name ∈ s.names, ∀ front back, Name.base name = front ++ keyword ++ back →
      Text.KeepsSigmas front back keyword → name ∈ s.search keyword) ∧
    (keyword.EnclosesSigmas → ∀ name ∈ s.names, keyword <:+: Name.base name →
      name ∈ s.search keyword) := by
  refine ⟨search_sublist s keyword, (search_sublist s keyword).nodup reachable.distinct.nodup,
    fun _ => mem_search_iff, fun name there front back split => mem_search_of_keeps there split, ?_⟩
  rintro encloses name there ⟨front, back, split⟩
  exact mem_search_of_keeps there split.symm (encloses.keeps front back)

def greek : Store where
  decks := [("ΑΣΑ".toList, []), ("_ΒΑΣ".toList, ["x".toList])]
  source := .cycle #[]
  host := {}

theorem greek_reachable : Reachable greek := by
  have distinct : Name.Distinct greek.decks.names := by decide
  have valid : Settings.ofCatalog [] = .ok {} := rfl
  exact .built valid (ofJson_toJson distinct {} (.cycle #[]))

theorem search_misses_by_sigma_of_greek :
    Reachable greek ∧ "_ΒΑΣ".toList ∈ greek.search "ΑΣ".toList ∧
      (greek.search "ΑΣ".toList).Nodup := by
  have keeps : Text.KeepsSigmas ['Β'] [] "ΑΣ".toList := by
    intro a b split
    cases a with
    | nil => simp at split
    | cons c a =>
      cases a with
      | nil =>
        simp only [String.reduceToList, List.cons_append, List.nil_append, List.cons.injEq] at split
        obtain ⟨rfl, -, rfl⟩ := split
        decide +kernel
      | cons d a => simp at split
  obtain ⟨-, distinct, -, found, -⟩ := search_misses_by_sigma greek_reachable "ΑΣ".toList
  exact ⟨greek_reachable, found _ (by decide) ['Β'] [] rfl keeps, distinct⟩

theorem search_misses_greek :
    Reachable greek ∧ "ΑΣΑ".toList ∈ greek.names ∧ "ΑΣ".toList <:+: Name.base "ΑΣΑ".toList ∧
      "ΑΣΑ".toList ∉ greek.search "ΑΣ".toList := by
  refine ⟨greek_reachable, by decide, ⟨[], ['Α'], rfl⟩, ?_⟩
  decide +kernel

end Store

end DrawPile
