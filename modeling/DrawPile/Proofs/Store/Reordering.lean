import DrawPile.Proofs.Reference.Agreement
import DrawPile.Proofs.Store.Announcement
import DrawPile.Proofs.Store.Failure
import DrawPile.Proofs.Store.Moving

/-! Moving decks beside drawing. A draw finds its entries by name and changes decks where they stand,
and a move changes only where they stand: so which of the two is done first makes no difference, as
long as no listener raises an error. -/
namespace DrawPile

namespace Audience

/-- Two audiences that were given the same notices, and in which no event reaches one who raises
errors. -/
structure Hushed (a b : Audience) : Prop where
  happened : b.happened = a.happened
  calm : a.Calm
  calm' : b.Calm

theorem Hushed.announce {a b : Audience} (hushed : Hushed a b) (n : Notice) :
    (a.announce n).2 = (b.announce n).2 ∧ Hushed (a.announce n).1 (b.announce n).1 := by
  obtain ⟨heard, calm⟩ := hushed.calm.announce n
  obtain ⟨heard', calm'⟩ := hushed.calm'.announce n
  have happened : (b.announce n).1.happened = (a.announce n).1.happened := by
    rw [announce_happened, announce_happened, hushed.happened]
  exact ⟨heard.trans heard'.symm, happened, calm, calm'⟩

end Audience

/-- The same decks in two orders. -/
structure Decks.Reordered (names names' : List Text) (decks decks' : Decks) : Prop where
  order : decks.names = names
  order' : decks'.names = names'
  found : ∀ name, decks'.get? name = decks.get? name

namespace Decks.Reordered

theorem put {names names' : List Text} {decks decks' : Decks} {name : Text}
    (reordered : Reordered names names' decks decks') (present : name ∈ decks.names)
    (entries : List Text) :
    Reordered names names' (decks.put name entries) (decks'.put name entries) := by
  have present' : name ∈ decks'.names := by
    obtain ⟨kept, found⟩ := Catalog.exists_of_mem_names present
    exact Catalog.mem_names_of_get? ((reordered.found name).trans found)
  constructor
  · exact (Catalog.names_put_of_mem present).trans reordered.order
  · exact (Catalog.names_put_of_mem present').trans reordered.order'
  · intro other
    by_cases here : other = name
    · rw [here, Catalog.get?_put_self, Catalog.get?_put_self]
    · rw [Catalog.get?_put_of_ne here, Catalog.get?_put_of_ne here, reordered.found]

end Decks.Reordered

theorem Table.mem_names_of_entries {t : Table Audience} {name : Text}
    (some_there : t.entries name ≠ []) : name ∈ t.decks.names := by
  by_contra absent
  rw [Table.entries, Catalog.get?_eq_none_iff.2 absent] at some_there
  exact some_there rfl

/- Tables with the same decks in two orders, before two audiences, and else the same. -/
inductive Shuffled (names names' : List Text) (t : Table Audience) : Table Audience → Prop
  | shuffled {decks : Decks} {host : Audience} (reordered : t.decks.Reordered names names' decks)
      (hushed : t.host.Hushed host) : Shuffled names names' t { t with decks, host }

namespace Shuffled
variable {names names' : List Text} {t t' : Table Audience}

theorem entries (shuffled : Shuffled names names' t t') (name : Text) :
    t'.entries name = t.entries name := by
  obtain ⟨reordered, -⟩ := shuffled
  rw [Table.entries, Table.entries, reordered.found]

theorem take {name : Text} (shuffled : Shuffled names names' t t') (present : name ∈ t.decks.names)
    (raw : Text) (place : Nat) :
    Outcome.Agree (Shuffled names names') (t.take Store.observer name raw place)
      (t'.take Store.observer name raw place) := by
  have same := shuffled.entries name
  obtain ⟨reordered, hushed⟩ := shuffled
  obtain ⟨heard, told⟩ := hushed.announce ⟨.consumed, name⟩
  unfold Table.take
  rw [same]
  exact ⟨heard, .shuffled (reordered.put present _) told⟩

theorem reordered (shuffled : Shuffled names names' t t') :
    t.decks.Reordered names names' t'.decks := by
  obtain ⟨reordered, -⟩ := shuffled
  exact reordered

theorem hushed (shuffled : Shuffled names names' t t') : t.host.Hushed t'.host := by
  obtain ⟨-, hushed⟩ := shuffled
  exact hushed

theorem record (shuffled : Shuffled names names' t t') :
    t'.source = t.source ∧ t'.consumed = t.consumed ∧ t'.warnings = t.warnings := by
  obtain ⟨-, -⟩ := shuffled
  exact ⟨rfl, rfl, rfl⟩

theorem with_source (shuffled : Shuffled names names' t t') (source : Source) :
    Shuffled names names' { t with source } { t' with source } := by
  obtain ⟨reordered, hushed⟩ := shuffled
  exact @Shuffled.shuffled names names' { t with source } _ _ reordered hushed

theorem drawFrom (shuffled : Shuffled names names' t t') (form : Reference.Form) (name : Text) :
    Outcome.Agree (Shuffled names names') (t.drawFrom Store.observer form name)
      (t'.drawFrom Store.observer form name) := by
  have same := shuffled.entries name
  have sourced := shuffled.with_source
  obtain ⟨reordered, hushed⟩ := shuffled
  unfold Table.drawFrom
  rw [same]
  cases there : t.entries name with
  | nil => exact ⟨rfl, .shuffled reordered hushed⟩
  | cons first rest =>
    have present : name ∈ t.decks.names := Table.mem_names_of_entries (by simp [there])
    dsimp only
    -- Both pick by the same chance; what it comes to is of no account.
    generalize t.source.pick (rest.length + 1) = picked
    cases form with
    | keeping => exact ⟨rfl, sourced picked.2⟩
    | taking => exact ((sourced picked.2).take present _ _).map

/-- Draws by name go the same way in both orders. -/
theorem lockstep (names names' : List Text) :
    Reference.Lockstep Store.observer Store.observer (Shuffled names names') where
  counted := by
    rintro t _ ⟨-, -⟩
    rfl
  recounted := by
    rintro t _ count ⟨reordered, hushed⟩
    exact .shuffled reordered hushed
  drawn := fun form name shuffled => shuffled.drawFrom form name

end Shuffled

namespace Store
variable {names names' : List Text}

/- Stores that differ in the order of their decks, and in who listens. -/
structure Rearranged (names names' : List Text) (s t : Store) : Prop where
  tables : Shuffled names names' s.toTable t.toTable
  settings : t.settings = s.settings

theorem resolve_rearranged {s t : Store} (rearranged : Rearranged names names' s t) (text : Text) :
    Outcome.Agree (Rearranged names names') (s.resolve text) (t.resolve text) := by
  unfold resolve
  rw [rearranged.settings]
  rcases Reference.Limits.ofInts? s.settings.maxDepth s.settings.maxDraws with e | limits
  · exact ⟨rfl, rearranged⟩
  · obtain ⟨result, tables⟩ :=
      Reference.resolve_agree (Shuffled.lockstep names names') limits text rearranged.tables
    exact ⟨result, tables, rearranged.settings⟩

theorem Rearranged.with_source {s t : Store} (rearranged : Rearranged names names' s t)
    (source : Source) :
    Rearranged names names' { s with source } { t with source } where
  tables := rearranged.tables.with_source source
  settings := rearranged.settings

theorem draw_rearranged {s t : Store} (rearranged : Rearranged names names' s t) (name : Text) :
    Outcome.Agree (Rearranged names names') (s.draw name) (t.draw name) := by
  have same := rearranged.tables.entries name
  unfold draw
  rw [same, rearranged.tables.record.1]
  split
  · exact ⟨rfl, rearranged⟩
  · rcases drawEntry (s.entries name) (some name) s.source with ⟨source, e | content⟩
    · exact ⟨rfl, rearranged.with_source source⟩
    · exact resolve_rearranged (rearranged.with_source source) content

theorem perform_rearranged {s t : Store} {op : Operation} (rearranged : Rearranged names names' s t)
    (resolves : op.Resolves) :
    Outcome.Agree (Rearranged names names') (s.perform op) (t.perform op) := by
  rcases resolves with ⟨name, rfl⟩ | ⟨text, rfl⟩
  · exact (draw_rearranged rearranged name).map
  · exact (resolve_rearranged rearranged text).map

/-- What a move does is a matter of the names alone: nothing, or the exchange of two places. -/
theorem moveDeck_by_names (distinct : names.Nodup) (name : Text) (offset : Int) :
    (∃ result, ∀ s : Store, s.names = names →
      s.step (.moveDeck name offset) = (s.freshRecord, result)) ∨
    ∃ index other : Nat, ∀ s : Store, s.names = names →
      s.step (.moveDeck name offset) =
        announce { s.freshRecord with decks := exchange s.decks index other } .reordered name
          (.flag true) := by
  by_cases present : name ∈ names
  · obtain ⟨index, placed⟩ := List.mem_iff_getElem?.1 present
    have moves (s : Store) (same : s.names = names) :=
      @step_moveDeck s name index offset (same ▸ distinct) (same ▸ placed)
    have size (s : Store) (same : s.names = names) : s.decks.length = names.length := by
      rw [← same, Store.names, Catalog.names, List.length_map]
    cases found : placeAt? names.length index offset with
    | none =>
      left
      refine ⟨.ok (.flag false), fun s same => ?_⟩
      rw [moves s same, size s same, found]
    | some other =>
      right
      refine ⟨index, other, fun s same => ?_⟩
      rw [moves s same, size s same, found]
  · left
    refine ⟨.error (.unknownDeck name), fun s same => ?_⟩
    have absent : name ∉ s.freshRecord.decks.names := fun member => present (same ▸ member)
    have missing := Catalog.get?_eq_none_iff.2 absent
    simp only [step, perform, moveDeck, withDeck, require, missing]
    rfl

theorem freshRecord_rearranged {s : Store} {decks : Decks} {host : Audience}
    (reordered : s.decks.Reordered names names' decks) (calm : s.host.Calm) (calm' : host.Calm) :
    Rearranged names names' s.freshRecord { s with decks, host }.freshRecord where
  tables := @Shuffled.shuffled names names' s.freshRecord.toTable decks _ reordered
    ⟨rfl, calm.of_record rfl rfl, calm'.of_record rfl rfl⟩
  settings := rfl

/-- A move answers alike wherever the names are the same, and gives them the same new order. -/
theorem moveDeck_rearranges (distinct : names.Nodup) (name : Text) (offset : Int) :
    ∃ names' result, ∀ s : Store, s.names = names → s.host.Calm →
      (s.step (.moveDeck name offset)).2 = result ∧
        Rearranged names names' s.freshRecord (s.step (.moveDeck name offset)).1.freshRecord := by
  have fresh {s : Store} (calm : s.host.Calm) : s.freshRecord.host.Calm := calm.of_record rfl rfl
  rcases moveDeck_by_names distinct name offset with ⟨result, stays⟩ | ⟨index, other, moves⟩
  · refine ⟨names, result, fun s same calm => ?_⟩
    rw [stays s same]
    exact ⟨rfl, freshRecord_rearranged ⟨same, same, fun _ => rfl⟩ calm (fresh calm)⟩
  · refine ⟨exchange names index other, .ok (.flag true), fun s same calm => ?_⟩
    have order : s.decks.names = names := same
    have reordered : s.decks.Reordered names (exchange names index other)
        (exchange s.decks index other) := by
      constructor
      · exact order
      · rw [← order]
        exact map_exchange ..
      · exact Catalog.get?_of_perm (order.symm ▸ distinct) (exchange_perm ..)
    obtain ⟨heard, calm_after⟩ := (fresh calm).announce ⟨.reordered, name⟩
    rw [moves s same]
    constructor
    · simp only [announce, heard]
      rfl
    · exact freshRecord_rearranged reordered calm calm_after

/-- What is the same of two drawings. -/
structure DrawnAlike (o o' : Outcome Store Reply) : Prop where
  result : o'.2 = o.2
  source : o'.1.source = o.1.source
  consumed : o'.1.consumed = o.1.consumed
  warnings : o'.1.warnings = o.1.warnings
  notices : o'.1.host.happened = o.1.host.happened

theorem Rearranged.drawnAlike {o o' : Outcome Store Reply}
    (agree : Outcome.Agree (Rearranged names names') o o') : DrawnAlike o o' := by
  obtain ⟨result, ⟨tables, -⟩⟩ := agree
  obtain ⟨source, consumed, warnings⟩ := tables.record
  exact ⟨result.symm, source, consumed, warnings, tables.hushed.happened⟩

/-- Drawing from a store, or resolving a text, goes the same way before and after a move of a deck, and
the move answers the same before and after it; and both ways the decks are the same in the end, in the
same order. -/
theorem move_commutes_with_drawing {s : Store} {op : Operation} (reachable : Reachable s)
    (calm : s.host.Calm) (name : Text) (offset : Int) (resolves : op.Resolves) :
    DrawnAlike (s.step op) ((s.run [.moveDeck name offset]).step op) ∧
      ((s.run [op]).step (.moveDeck name offset)).2 = (s.step (.moveDeck name offset)).2 ∧
      (s.run [op, .moveDeck name offset]).decks = (s.run [.moveDeck name offset, op]).decks ∧
      (s.run [op, .moveDeck name offset]).source = (s.run [.moveDeck name offset, op]).source := by
  obtain ⟨names', answer, moves⟩ := moveDeck_rearranges reachable.distinct.nodup name offset
  obtain ⟨answered, start⟩ := moves s rfl calm
  have drawn : Outcome.Agree (Rearranged s.names names') (s.step op)
      ((s.run [.moveDeck name offset]).step op) := perform_rearranged start resolves
  have ends := drawn.2.tables
  obtain ⟨answered_later, moved_later⟩ := moves (s.run [op]) ends.reordered.order ends.hushed.calm
  have distinct := ((reachable.stepped (.moveDeck name offset)).stepped op).distinct.nodup
  refine ⟨Rearranged.drawnAlike drawn, answered_later.trans answered.symm, ?_, ?_⟩
  · have later := moved_later.tables.reordered
    apply Catalog.eq_of_get? distinct
    · exact later.order'.trans ends.reordered.order'.symm
    · exact fun deck => (later.found deck).trans (ends.reordered.found deck).symm
  · exact moved_later.tables.record.1.trans ends.record.1.symm

def parting : Store := (paired.step (.subscribe "once".toList .leave)).1

def bothEntries : Text := "\x7b__b\x7d and \x7b__b\x7d".toList

theorem move_commutes_with_drawing_of_parting :
    Reachable parting ∧ parting.host.Calm ∧
      DrawnAlike (parting.step (.resolve bothEntries))
        ((parting.run [.moveDeck "__b".toList 1]).step (.resolve bothEntries)) ∧
      (parting.step (.resolve bothEntries)).1.consumed =
        [⟨"__b".toList, "x".toList⟩, ⟨"__b".toList, "y".toList⟩] ∧
      (parting.run [.resolve bothEntries, .moveDeck "__b".toList 1]).decks =
        (parting.run [.moveDeck "__b".toList 1, .resolve bothEntries]).decks ∧
      (parting.run [.resolve bothEntries, .moveDeck "__b".toList 1]).names =
        ["_a".toList, "b".toList, "__b".toList] := by
  have reachable : Reachable parting := (crowded_reachable.stepped _).stepped _
  have calm : parting.host.Calm := by
    apply Audience.Calm.of_known
    · decide
    · decide
  have resolves : (Operation.resolve bothEntries).Resolves := .inr ⟨_, rfl⟩
  obtain ⟨alike, -, same, -⟩ :=
    move_commutes_with_drawing reachable calm "__b".toList 1 resolves
  exact ⟨reachable, calm, alike, by decide +kernel, same, by decide +kernel⟩

end Store

end DrawPile
