import DrawPile.Proofs.Json.RoundTrip
import DrawPile.Proofs.Store.Step

/-! Export and import. The decks of a store that operations lead to have a JSON text in every
layout, and a store that imports it has those decks and no others. A listener that raises an error
makes the import fail, but only after the decks are in place. -/
namespace DrawPile

theorem Decks.exact_toJson {decks : Decks} (distinct : decks.names.Nodup) :
    Json.Exact decks.toJson := by
  rw [toJson_eq]
  refine .object ?_ ?_
  · rwa [names_members]
  · intro m member
    obtain ⟨deck, -, rfl⟩ := List.mem_map.1 member
    refine .list ?_
    intro v among
    obtain ⟨entry, -, rfl⟩ := List.mem_map.1 among
    exact .text entry

namespace Store

theorem parse?_exportText {s : Store} (distinct : Name.Distinct s.names) (indent : Option Int) :
    Json.parse? (s.exportText indent) = some s.decks.toJson :=
  Json.parse?_write (Decks.exact_toJson distinct.nodup) _

theorem importDecks_exportText {s : Store} (distinct : Name.Distinct s.names) (indent : Option Int)
    (t : Store) :
    t.importDecks (.text (s.exportText indent)) false =
      announce { t with decks := s.decks } .replaced [] s.names := by
  have read := parse?_exportText distinct indent
  have accepted : checked s.decks = .ok s.decks := checked_of_distinct distinct
  rw [importDecks, Payload.read?, read, Decks.toJson_eq]
  simp [importObject, Decks.repair_members, Decks.repairWarnings_members, accepted, names]

theorem importing_result {s : Store} (distinct : Name.Distinct s.names) (indent : Option Int)
    (t : Store) :
    (t.step (.importDecks (.text (s.exportText indent)) false)).2 =
      (Audience.answer t.host.subscribed).map fun _ => .texts s.names := by
  have replaced := importDecks_exportText distinct indent t.freshRecord
  have listeners : t.freshRecord.host.subscribed = t.host.subscribed := rfl
  simp only [step, perform, replaced, Outcome.map_snd, announce_snd, listeners]
  cases Audience.answer t.host.subscribed <;> rfl

/-- What a store exports in any layout, another one imports: it has the same decks in the same
order, repairs nothing and gives one notice. Where a listener raises an error, the first one that
does decides the result. -/
theorem import_exported {s : Store} (reachable : Reachable s) (indent : Option Int) (t : Store) :
    (t.step (.importDecks (.text (s.exportText indent)) false)).1.decks = s.decks ∧
      (t.step (.importDecks (.text (s.exportText indent)) false)).1.warnings = [] ∧
      (t.step (.importDecks (.text (s.exportText indent)) false)).1.host.happened =
        [⟨.replaced, []⟩] ∧
      (t.step (.importDecks (.text (s.exportText indent)) false)).2 =
        match t.host.subscribed.find? fun l => decide (l.habit = .refuse) with
        | none => .ok (.texts s.names)
        | some l => .error (.listener l.id) := by
  have replaced := importDecks_exportText reachable.distinct indent t.freshRecord
  have result := importing_result reachable.distinct indent t
  have after : (t.step (.importDecks (.text (s.exportText indent)) false)).1 =
      (announce { t.freshRecord with decks := s.decks } .replaced [] s.names).1 := by
    simp only [step, perform, replaced, Outcome.map_fst]
  rw [result, after, Audience.answer]
  refine ⟨rfl, rfl, Audience.announce_happened .., ?_⟩
  cases t.host.subscribed.find? fun l => decide (l.habit = .refuse) with
  | none => rfl
  | some l => rfl

/- Names and entries that are written with escapes, and a deck without a name. -/
def escapes : Store where
  decks := [("_\"a\\".toList, ["\t\x7bb\x7d\n".toList, []]), ([], ["\x01\x7f".toList])]
  source := .cycle #[]
  host := {}

theorem escapes_reachable : Reachable escapes := by
  have valid : Settings.ofCatalog [] = .ok {} := rfl
  have distinct : Name.Distinct escapes.decks.names := by decide
  exact .built valid (ofJson_toJson distinct {} (.cycle #[]))

theorem import_exported_of_escapes :
    Reachable escapes ∧ (underscored.step
      (.importDecks (.text (escapes.exportText (some (-2)))) false)).1.decks = escapes.decks :=
  ⟨escapes_reachable, (import_exported escapes_reachable (some (-2)) underscored).1⟩

theorem import_exported_refused :
    Reachable escapes ∧ Reachable (escapes.step (.subscribe "r".toList .refuse)).1 ∧
      ((escapes.step (.subscribe "r".toList .refuse)).1.step
        (.importDecks (.text (escapes.exportText none)) false)).2 =
          .error (.listener "r".toList) := by
  refine ⟨escapes_reachable, escapes_reachable.stepped _, ?_⟩
  rw [importing_result escapes_reachable.distinct]
  rfl

end Store

end DrawPile
