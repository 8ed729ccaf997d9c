import DrawPile.Odds
import DrawPile.Reference.Resolution
import DrawPile.Store.Deck

/-! Editing the entries of a deck, and drawing. The entry drawn stays in its deck; references in it
take entries out of theirs, and the audience hears of each. -/
namespace DrawPile.Store

def entryRecords (s : Store) (name : Text) : Except Error (List Entry) :=
  (s.require name).map (·.map Entry.decode)

/-- What is said of a place outside: the index is named, so it has to be written. -/
def outOfRange (name : Text) (size : Nat) (index : Int) : Error :=
  if Text.isWritable index then .badIndex name size index else .unwritable

/-- Goes on with the entries of a deck and a place that must be one of theirs. -/
def withEntry {α : Type} (s : Store) (name : Text) (index : Int)
    (f : List Text → Nat → Outcome Store α) : Outcome Store α :=
  s.withDeck name fun entries =>
    if 0 ≤ index ∧ index < entries.length then f entries index.toNat
    else (s, .error (outOfRange name entries.length index))

def setEntries {α : Type} (s : Store) (name : Text) (entries : List Text) (result : α) :
    Outcome Store α :=
  announce { s with decks := s.decks.put name entries } .updated name result

def addEntry (s : Store) (name content : Text) (weight : Option Text) : Outcome Store Nat :=
  s.withDeck name fun entries =>
    s.setEntries name (entries ++ [Entry.encode content weight]) entries.length

def updateEntry (s : Store) (name : Text) (index : Int) (content : Text)
    (weight : Option Text) : Outcome Store Unit :=
  s.withEntry name index fun entries i =>
    s.setEntries name (entries.set i (Entry.encode content weight)) ()

def removeEntry (s : Store) (name : Text) (index : Int) : Outcome Store Text :=
  s.withEntry name index fun entries i =>
    s.setEntries name (entries.eraseIdx i) ((entries[i]?).getD [])

def moveEntry (s : Store) (name : Text) (index offset : Int) : Outcome Store Bool :=
  s.withEntry name index fun entries i =>
    match placeAt? entries.length i offset with
    | none => (s, .ok false)
    | some other => s.setEntries name (exchange entries i other) true

def observer : Observer Audience := fun removal a => a.announce ⟨.consumed, removal.deck⟩

def resolve (s : Store) (text : Text) : Outcome Store Text :=
  (Outcome.of s (Reference.Limits.ofInts? s.settings.maxDepth s.settings.maxDraws)).andThen
    fun s limits =>
      let (table, result) := Reference.resolve limits observer text s.toTable
      ({ s with toTable := table }, result)

def draw (s : Store) (name : Text) : Outcome Store Text :=
  match s.entries name with
  | [] => (s, .error (.emptyPopulation [] (some name)))
  | entries =>
    let (source, result) := drawEntry entries (some name) s.source
    (Outcome.of { s with source } result).andThen fun s content => s.resolve content

def distribution (s : Store) (name : Text) : Outcome Store (List Slice) :=
  s.withDeck name fun entries =>
    let (source, result) := DrawPile.distribution entries s.settings.labelLength s.source
    ({ s with source }, result)

end DrawPile.Store
