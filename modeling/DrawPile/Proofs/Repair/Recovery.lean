import DrawPile.Proofs.Json.RoundTrip
import DrawPile.Proofs.Repair

/-! What repair writes out is not lost. An item of a list that is no text is stored as an entry that
spells it as a JSON text does, and unless there is a float somewhere in it the item is read back from
that entry. -/
namespace DrawPile.Decks

/-- The scalars, which repair spells by itself, are spelled as in any other JSON text. -/
theorem entryText_eq_write {v : Json} (exact : Json.Exact v) (no_text : ∀ t, v ≠ .text t) :
    entryText v = .ok (v.write none) := by
  have able := exact.writable
  cases exact with
  | null => rfl
  | bool value => cases value <;> rfl
  | @int n _ =>
    have short : Text.isWritable n = true := able
    rw [entryText, if_pos short, Json.write, Json.writeAt, List.append_nil]
  | text t => exact absurd rfl (no_text t)
  | list => exact if_pos able
  | object => exact if_pos able

theorem get?_repair {members : Catalog Json} {v : Json} {decks : Decks} {name : Text}
    (repaired : repair members = .ok decks) (there : members.get? name = some v) :
    ∃ entries, decks.get? name = some entries ∧ repairDeck v = .ok entries := by
  have paired := repair_ok_iff.1 repaired
  clear repaired
  induction paired with
  | nil => cases there
  | @cons m deck _ _ first _ ih =>
    rw [Catalog.get?] at there ⊢
    rw [first.1]
    split at there
    · next same =>
      cases there
      exact ⟨deck.2, if_pos same, first.2⟩
    · next other =>
      rw [if_neg other]
      exact ih there

/-- An item that is no text has an entry from which that very item is read, and if all of the data
can be repaired that entry stands in its place. -/
theorem repaired_entry_read_back {members : Catalog Json} {name : Text} {items : List Json}
    {index : Nat} {v : Json} (there : members.get? name = some (.list items))
    (within : items[index]? = some v) (exact : Json.Exact v) (no_text : ∀ t, v ≠ .text t) :
    ∃ entry, entryText v = .ok entry ∧ Json.parse? entry = some v ∧
      ((Json.object members).writable = true →
        ∃ decks entries, repair members = .ok decks ∧ decks.get? name = some entries ∧
          entries[index]? = some entry) := by
  have spelled := entryText_eq_write exact no_text
  refine ⟨v.write none, spelled, Json.parse?_write exact none, fun able => ?_⟩
  obtain ⟨decks, repaired⟩ := (repair_hinges members).ok_iff.1 able
  obtain ⟨entries, found, done⟩ := get?_repair repaired there
  obtain ⟨entry, stands, made⟩ := getElem?_of_mapM done within
  rw [spelled] at made
  cases made
  exact ⟨decks, entries, repaired, found, stands⟩

/- An object whose members are not in the order of their names, with lists and objects inside. -/
def keepsake : Json :=
  .object [("b\"".toList, .list [.int (-70), .bool false, .list []]),
    ([], .object [("a".toList, .text "\\\n".toList), ("_".toList, .null)])]

theorem keepsake_exact : Json.Exact keepsake := by
  have short : (Text.ofNat (-70 : Int).natAbs).length ≤ Text.maxDigits := by decide
  have first : Json.Exact (.list [.int (-70), .bool false, .list []]) := by
    refine .list (List.forall_mem_cons.2 ⟨.int short, List.forall_mem_cons.2 ⟨.bool false, ?_⟩⟩)
    exact List.forall_mem_singleton.2 (.list (by simp))
  have second : Json.Exact (.object [("a".toList, .text "\\\n".toList), ("_".toList, .null)]) :=
    .object (by decide) (List.forall_mem_cons.2 ⟨.text _, List.forall_mem_singleton.2 .null⟩)
  exact .object (by decide) (List.forall_mem_cons.2 ⟨first, List.forall_mem_singleton.2 second⟩)

def drawer : List Json := [.text "x".toList, keepsake]

def chest : Catalog Json := [("d".toList, .list drawer)]

theorem repaired_entry_read_back_of_keepsake :
    Json.Exact keepsake ∧ (∀ t, keepsake ≠ .text t) ∧
      ∃ decks entries entry, repair chest = .ok decks ∧ decks.get? "d".toList = some entries ∧
        entries[1]? = some entry ∧ Json.parse? entry = some keepsake := by
  have there : chest.get? "d".toList = some (.list drawer) := rfl
  have within : drawer[1]? = some keepsake := rfl
  have no_text : ∀ t, keepsake ≠ .text t := by simp [keepsake]
  have able : (Json.object chest).writable = true := by decide
  obtain ⟨entry, -, read, stored⟩ := repaired_entry_read_back there within keepsake_exact no_text
  obtain ⟨decks, entries, repaired, found, stands⟩ := stored able
  exact ⟨keepsake_exact, no_text, decks, entries, entry, repaired, found, stands, read⟩

end DrawPile.Decks
