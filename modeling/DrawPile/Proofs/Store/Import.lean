import DrawPile.Proofs.Catalog.Merge
import DrawPile.Proofs.Json.Reading
import DrawPile.Proofs.Outcome
import DrawPile.Proofs.Store.Export

/-! Bringing decks into a store. An import decides first which decks there should be; if no two of
them share a base name they become the decks of the store, and otherwise it stays as it was. To
repeat an import changes no deck, and a store is made of an object as an empty one imports it. What
cannot be repaired is not imported either, and changes nothing. -/
namespace DrawPile

namespace Decks

/-- The decks that there should be once some are brought in. -/
def combined (decks imported : Decks) (merge : Bool) : Decks :=
  if merge then decks.merged imported else imported

end Decks

namespace Store
variable {s : Store} {payload : Payload}

/-- Data that can be given and kept. No string in them has a surrogate alone, and an object given as
a value has each of its names once and no integer that cannot be written. -/
def Payload.Proper : Payload → Prop
  | .text t => Json.spellsLone t = false
  | .bytes b => Json.bytesSpellLone b = false
  | .value (.text t) => Json.spellsLone t = false
  | .value (.object members) =>
    (Catalog.names members).Nodup ∧ (Json.object members).writable = true
  | .value _ => True

theorem Payload.Proper.object {members : Catalog Json} (proper : payload.Proper)
    (read : payload.read? = some (.object members)) :
    members.names.Nodup ∧ (Json.object members).writable = true := by
  have parsed {t : Text} (found : Json.parse? t = some (.object members)) :
      members.names.Nodup ∧ (Json.object members).writable = true :=
    ⟨Json.names_of_parse? found, Json.writable_of_parse? found⟩
  cases payload with
  | text t => exact parsed read
  | bytes b =>
    obtain ⟨t, found⟩ := Json.parseBytes?_eq_some read
    exact parsed found
  | value v =>
    cases v with
    | text t => exact parsed read
    | object given =>
      cases read
      exact proper
    | _ => cases read

/-- An object that cannot be repaired is refused by both, and without a warning. -/
theorem unwritable_refused {members : Catalog Json}
    (read : payload.read? = some (.object members))
    (unwritable : (Json.object members).writable = false) (merge : Bool) (settings : Settings)
    (source : Source) :
    s.step (.importDecks payload merge) = (s.freshRecord, .error .unwritable) ∧
      ofJson (.object members) settings source = ([], .error .unwritable) := by
  have failed := (Decks.repair_hinges members).error_iff.1 unwritable
  constructor
  · simp only [step, perform, importDecks, read, importObject, failed, Outcome.of_error,
      Outcome.andThen_error, Outcome.map_error]
  · simp only [ofJson, failed, Outcome.of_error, Outcome.andThen_error]

end Store

end DrawPile
