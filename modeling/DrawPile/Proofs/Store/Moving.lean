import DrawPile.Proofs.Catalog.Order
import DrawPile.Proofs.Store.Creation
import DrawPile.Proofs.Store.Renaming

/-! Moves. A move exchanges what is at two places and keeps all else, or does nothing if no other place
is at that distance; and the move back from the other place undoes it. -/
namespace DrawPile

section Places
variable {α : Type}

/-- What is at two places has been exchanged; all else is where it was. -/
structure Exchanged (i j : Nat) (xs ys : List α) : Prop where
  length : ys.length = xs.length
  first : ys[i]? = xs[j]?
  second : ys[j]? = xs[i]?
  others : ∀ k, k ≠ i → k ≠ j → ys[k]? = xs[k]?

theorem exchange_of_lt {xs : List α} {i j : Nat} (first : i < xs.length) (second : j < xs.length) :
    exchange xs i j = (xs.set i xs[j]).set j xs[i] := by
  simp only [exchange, List.getElem?_eq_getElem first, List.getElem?_eq_getElem second]

theorem exchanged_exchange {xs : List α} {i j : Nat} (first : i < xs.length)
    (second : j < xs.length) :
    Exchanged i j xs (exchange xs i j) := by
  rw [exchange_of_lt first second]
  constructor
  · simp
  · rw [List.getElem?_set, List.getElem?_set_self first, List.getElem?_eq_getElem second]
    split
    · next same => simp [same, first]
    · rfl
  · rw [List.getElem?_set_self (by simpa using second), List.getElem?_eq_getElem first]
  · intro k apart apart'
    rw [List.getElem?_set_ne apart'.symm, List.getElem?_set_ne apart.symm]

/-- A second exchange of the two undoes the first. -/
theorem Exchanged.back {xs ys zs : List α} {i j : Nat} (there : Exchanged i j xs ys)
    (back : Exchanged j i ys zs) : zs = xs := by
  apply List.ext_getElem?
  intro k
  by_cases at_first : k = i
  · rw [at_first, back.second, there.second]
  · by_cases at_second : k = j
    · rw [at_second, back.first, there.first]
    · rw [back.others k at_second at_first, there.others k at_first at_second]

theorem map_exchange {β : Type} (f : α → β) (xs : List α) (i j : Nat) :
    (exchange xs i j).map f = exchange (xs.map f) i j := by
  simp only [exchange, List.getElem?_map]
  cases xs[i]? <;> cases xs[j]? <;> simp

def Leads (size place : Nat) (offset : Int) : Prop :=
  offset ≠ 0 ∧ 0 ≤ place + offset ∧ place + offset < size

instance : Decidable (Leads size place offset) :=
  inferInstanceAs (Decidable (offset ≠ 0 ∧ 0 ≤ place + offset ∧ place + offset < size))

theorem placeAt?_eq_none_iff {size place : Nat} {offset : Int} :
    placeAt? size place offset = none ↔ ¬ Leads size place offset := by
  simp only [placeAt?, Leads, ite_eq_right_iff, reduceCtorEq, imp_false]

theorem placeAt?_of_leads {size place other : Nat} {offset : Int} (leads : Leads size place offset)
    (same : (other : Int) = place + offset) :
    placeAt? size place offset = some other := by
  have whole : (place + offset).toNat = other := by omega
  have found : placeAt? size place offset = some (place + offset).toNat := if_pos leads
  rw [found, whole]

namespace Leads

theorem exists_place {size place : Nat} {offset : Int} (leads : Leads size place offset) :
    ∃ other : Nat, (other : Int) = place + offset :=
  ⟨(place + offset).toNat, Int.toNat_of_nonneg leads.2.1⟩

theorem lt {size place other : Nat} {offset : Int} (leads : Leads size place offset)
    (same : (other : Int) = place + offset) :
    other < size := by
  have inside := leads.2.2
  omega

theorem back {size place other : Nat} {offset : Int} (leads : Leads size place offset)
    (inside : place < size) (same : (other : Int) = place + offset) :
    Leads size other (-offset) := by
  have away := leads.1
  refine ⟨?_, ?_, ?_⟩ <;> omega

end Leads

end Places

namespace Decks

/-- Two entries of a deck have been exchanged. All decks are where they were, and no other deck has
changed. -/
structure EntriesExchanged (name : Text) (i j : Nat) (decks after : Decks) : Prop where
  names : after.names = decks.names
  others : ∀ other, other ≠ name → after.get? other = decks.get? other
  entries : ∃ xs ys, decks.get? name = some xs ∧ after.get? name = some ys ∧ Exchanged i j xs ys

theorem entriesExchanged_put {decks : Decks} {name : Text} {i j : Nat} {entries : List Text}
    (found : decks.get? name = some entries) (first : i < entries.length)
    (second : j < entries.length) :
    EntriesExchanged name i j decks (decks.put name (exchange entries i j)) where
  names := Catalog.names_put_of_mem (Catalog.mem_names_of_get? found)
  others := fun _ different => Catalog.get?_put_of_ne different
  entries := ⟨entries, _, found, Catalog.get?_put_self, exchanged_exchange first second⟩

theorem EntriesExchanged.back {decks between after : Decks} {name : Text} {i j : Nat}
    (distinct : decks.names.Nodup) (there : EntriesExchanged name i j decks between)
    (back : EntriesExchanged name j i between after) : after = decks := by
  apply Catalog.eq_of_get? distinct (back.names.trans there.names)
  intro other
  by_cases same : other = name
  · obtain ⟨xs, ys, before, found, exchanged⟩ := there.entries
    obtain ⟨_, zs, found', behind, returned⟩ := back.entries
    obtain rfl := Option.some.inj (found.symm.trans found')
    rw [same, before, behind, exchanged.back returned]
  · exact (back.others other same).trans (there.others other same)

end Decks

namespace Store
variable {s : Store} {name : Text}

/-- The decks have changed in some way, and nothing else has but what the audience does on hearing the
one notice of it. The result is true, unless a listener raises an error. -/
structure Moved (s : Store) (changed : Decks → Decks → Prop) (notice : Notice)
    (o : Outcome Store Reply) : Prop where
  decks : changed s.decks o.1.decks
  settings : o.1.settings = s.settings
  source : o.1.source = s.source
  told : o.1.host = (s.freshRecord.host.announce notice).1
  notices : o.1.host.happened = [notice]
  result : o.2 = (Audience.answer s.host.subscribed).map fun _ => .flag true

/-- A move between two places, and the move back after it. -/
structure Reversed (s : Store) (changed : Nat → Nat → Decks → Decks → Prop) (i j : Nat)
    (notice : Notice) (there back : Operation) : Prop where
  moved : Moved s (changed i j) notice (s.step there)
  returned : Moved (s.run [there]) (changed j i) notice ((s.run [there]).step back)
  restored : SameContents s (s.run [there, back])

theorem moved_announce {changed : Decks → Decks → Prop} {decks : Decks} {event : Event}
    (change : changed s.decks decks) :
    Moved s changed ⟨event, name⟩
      (announce { s.freshRecord with decks } event name (Reply.flag true)) where
  decks := change
  settings := rfl
  source := rfl
  told := rfl
  notices := Audience.announce_happened ..
  result := announce_snd ..

theorem Moved.restored {notice : Notice} {o : Outcome Store Reply}
    {changed changed' : Decks → Decks → Prop} {o' : Outcome Store Reply}
    (undoes : ∀ after, changed' o.1.decks after → after = s.decks)
    (moved : Moved s changed notice o) (returned : Moved o.1 changed' notice o') :
    SameContents s o'.1 where
  decks := undoes _ returned.decks
  settings := returned.settings.trans moved.settings
  source := returned.source.trans moved.source

section MoveDeck

theorem step_moveDeck {index : Nat} {offset : Int} (distinct : s.names.Nodup)
    (placed : s.names[index]? = some name) :
    s.step (.moveDeck name offset) =
      match placeAt? s.decks.length index offset with
      | none => (s.freshRecord, .ok (.flag false))
      | some other =>
        announce { s.freshRecord with decks := exchange s.decks index other } .reordered name
          (.flag true) := by
  obtain ⟨entries, found⟩ := Catalog.exists_of_mem_names (List.mem_of_getElem? placed)
  have there : s.freshRecord.decks.get? name = some entries := found
  have at_index : s.freshRecord.names.idxOf name = index := by
    obtain ⟨inside, rfl⟩ := List.getElem?_eq_some_iff.1 placed
    exact distinct.idxOf_getElem index inside
  simp only [step, perform, moveDeck, withDeck_of_get? there, at_index]
  have size : s.freshRecord.decks.length = s.decks.length := rfl
  rw [size]
  cases placeAt? s.decks.length index offset with
  | none => rfl
  | some other => exact announce_map ..

theorem moveDeck_stays {index : Nat} {offset : Int} (distinct : s.names.Nodup)
    (placed : s.names[index]? = some name) (nowhere : ¬ Leads s.decks.length index offset) :
    s.step (.moveDeck name offset) = (s.freshRecord, .ok (.flag false)) := by
  rw [step_moveDeck distinct placed, placeAt?_eq_none_iff.2 nowhere]

theorem lt_of_placed {index : Nat} (placed : s.names[index]? = some name) :
    index < s.decks.length := by
  have inside := (List.getElem?_eq_some_iff.1 placed).1
  rwa [names, Catalog.names, List.length_map] at inside

theorem moveDeck_moved {index other : Nat} {offset : Int} (distinct : s.names.Nodup)
    (placed : s.names[index]? = some name) (leads : Leads s.decks.length index offset)
    (same : (other : Int) = index + offset) :
    Moved s (Exchanged index other) ⟨.reordered, name⟩ (s.step (.moveDeck name offset)) := by
  rw [step_moveDeck distinct placed, placeAt?_of_leads leads same]
  exact moved_announce (exchanged_exchange (lt_of_placed placed) (leads.lt same))

theorem moveDeck_reversed {index other : Nat} {offset : Int} (reachable : Reachable s)
    (placed : s.names[index]? = some name) (leads : Leads s.decks.length index offset)
    (same : (other : Int) = index + offset) :
    Reversed s Exchanged index other ⟨.reordered, name⟩ (.moveDeck name offset)
      (.moveDeck name (-offset)) := by
  have moved := moveDeck_moved reachable.distinct.nodup placed leads same
  have distinct_after := (reachable.stepped (.moveDeck name offset)).distinct.nodup
  have placed_after : (s.step (.moveDeck name offset)).1.names[other]? = some name := by
    rw [names, Catalog.names, List.getElem?_map, moved.decks.second, ← List.getElem?_map]
    exact placed
  have leads_back : Leads (s.step (.moveDeck name offset)).1.decks.length other (-offset) := by
    rw [moved.decks.length]
    exact leads.back (lt_of_placed placed) same
  have same_back : (index : Int) = other + -offset := by omega
  have returned := moveDeck_moved distinct_after placed_after leads_back same_back
  exact ⟨moved, returned, moved.restored (fun _ => moved.decks.back) returned⟩

end MoveDeck

section MoveEntry

theorem step_moveEntry {entries : List Text} {place : Nat} {offset : Int}
    (found : s.decks.get? name = some entries) (inside : place < entries.length) :
    s.step (.moveEntry name place offset) =
      match placeAt? entries.length place offset with
      | none => (s.freshRecord, .ok (.flag false))
      | some other =>
        announce { s.freshRecord with decks := s.decks.put name (exchange entries place other) }
          .updated name (.flag true) := by
  have there : s.freshRecord.decks.get? name = some entries := found
  simp only [step, perform, moveEntry, withEntry_of_get? there inside]
  cases placeAt? entries.length place offset with
  | none => rfl
  | some other => exact announce_map ..

theorem moveEntry_stays {entries : List Text} {place : Nat} {offset : Int}
    (found : s.decks.get? name = some entries) (inside : place < entries.length)
    (nowhere : ¬ Leads entries.length place offset) :
    s.step (.moveEntry name place offset) = (s.freshRecord, .ok (.flag false)) := by
  rw [step_moveEntry found inside, placeAt?_eq_none_iff.2 nowhere]

theorem moveEntry_moved {entries : List Text} {place other : Nat} {offset : Int}
    (found : s.decks.get? name = some entries) (inside : place < entries.length)
    (leads : Leads entries.length place offset) (same : (other : Int) = place + offset) :
    Moved s (Decks.EntriesExchanged name place other) ⟨.updated, name⟩
      (s.step (.moveEntry name place offset)) := by
  rw [step_moveEntry found inside, placeAt?_of_leads leads same]
  exact moved_announce (Decks.entriesExchanged_put found inside (leads.lt same))

theorem moveEntry_reversed {entries : List Text} {place other : Nat} {offset : Int}
    (distinct : s.names.Nodup) (found : s.decks.get? name = some entries)
    (inside : place < entries.length) (leads : Leads entries.length place offset)
    (same : (other : Int) = place + offset) :
    Reversed s (Decks.EntriesExchanged name) place other ⟨.updated, name⟩
      (.moveEntry name place offset) (.moveEntry name other (-offset)) := by
  have moved := moveEntry_moved found inside leads same
  obtain ⟨_, after, found', found_after, exchanged⟩ := moved.decks.entries
  obtain rfl := Option.some.inj (found.symm.trans found')
  have inside_after : other < after.length := exchanged.length ▸ leads.lt same
  have leads_back : Leads after.length other (-offset) := exchanged.length ▸ leads.back inside same
  have same_back : (place : Int) = other + -offset := by omega
  have returned := moveEntry_moved found_after inside_after leads_back same_back
  exact ⟨moved, returned, moved.restored (fun _ => moved.decks.back distinct) returned⟩

end MoveEntry

/-- A deck, and an entry of a deck, is exchanged with the one at a distance, if there is another one
there, and then the move back from its new place leaves all decks as they were. If there is none,
nothing changes, nobody is told, and the result is false. -/
theorem moves_reversible {s : Store} (reachable : Reachable s) (name : Text) :
    (∀ (index : Nat) (offset : Int), s.names[index]? = some name →
      (Leads s.decks.length index offset → ∃ other : Nat, (other : Int) = index + offset ∧
        Reversed s Exchanged index other ⟨.reordered, name⟩ (.moveDeck name offset)
          (.moveDeck name (-offset))) ∧
      (¬ Leads s.decks.length index offset →
        s.step (.moveDeck name offset) = (s.freshRecord, .ok (.flag false)))) ∧
    ∀ (entries : List Text) (place : Nat) (offset : Int), s.decks.get? name = some entries →
      place < entries.length →
      (Leads entries.length place offset → ∃ other : Nat, (other : Int) = place + offset ∧
        Reversed s (Decks.EntriesExchanged name) place other ⟨.updated, name⟩
          (.moveEntry name place offset) (.moveEntry name other (-offset))) ∧
      (¬ Leads entries.length place offset →
        s.step (.moveEntry name place offset) = (s.freshRecord, .ok (.flag false))) := by
  constructor
  · intro index offset placed
    constructor
    · intro leads
      obtain ⟨other, same⟩ := leads.exists_place
      exact ⟨other, same, moveDeck_reversed reachable placed leads same⟩
    · exact moveDeck_stays reachable.distinct.nodup placed
  · intro entries place offset found inside
    constructor
    · intro leads
      obtain ⟨other, same⟩ := leads.exists_place
      exact ⟨other, same, moveEntry_reversed reachable.distinct.nodup found inside leads same⟩
    · exact moveEntry_stays found inside

def paired : Store := (crowded.step (.addEntry "__b".toList "y".toList none)).1

theorem moves_reversible_of_paired :
    Reachable paired ∧
      Moved paired (Exchanged 2 1) ⟨.reordered, "b".toList⟩
        (paired.step (.moveDeck "b".toList (-1))) ∧
      SameContents paired (paired.run [.moveDeck "b".toList (-1), .moveDeck "b".toList 1]) ∧
      paired.step (.moveDeck "b".toList (-3)) = (paired.freshRecord, .ok (.flag false)) ∧
      SameContents paired
        (paired.run [.moveEntry "__b".toList 1 (-1), .moveEntry "__b".toList 0 1]) ∧
      paired.step (.moveEntry "__b".toList 1 1) = (paired.freshRecord, .ok (.flag false)) := by
  have reachable : Reachable paired := crowded_reachable.stepped _
  have placed : paired.names[2]? = some "b".toList := by decide
  have found : paired.decks.get? "__b".toList = some ["x".toList, "y".toList] := by decide
  have decks_move := (moves_reversible reachable "b".toList).1 2
  have entries_move := (moves_reversible reachable "__b".toList).2 ["x".toList, "y".toList] 1
  obtain ⟨other, at_one, deck_reversed⟩ := (decks_move (-1) placed).1 (by decide)
  obtain rfl : other = 1 := by omega
  obtain ⟨first, at_zero, entry_reversed⟩ := (entries_move (-1) found (by decide)).1 (by decide)
  obtain rfl : first = 0 := by omega
  exact ⟨reachable, deck_reversed.moved, deck_reversed.restored,
    (decks_move (-3) placed).2 (by decide), entry_reversed.restored,
    (entries_move 1 found (by decide)).2 (by decide)⟩

theorem moves_reversible_refused :
    Reachable refusing ∧ refusing.names[0]? = some "_a".toList ∧
      Leads refusing.decks.length 0 1 ∧
      (refusing.step (.moveDeck "_a".toList 1)).2 = .error (.listener "r".toList) :=
  ⟨underscored_reachable.stepped _, by decide, by decide, rfl⟩

end Store

end DrawPile
