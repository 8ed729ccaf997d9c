import DrawPile.Store.Entries
import DrawPile.Store.Import

/-! All that can be asked of a store, as one type, and what answers. An operation starts a new
record of what happened, and whatever it changed before failing stays. -/
namespace DrawPile.Store

inductive Operation
  | names
  | contains (name : Text)
  | search (keyword : Text)
  | rawEntries (name : Text)
  | entries (name : Text)
  | subscribe (id : Text) (habit : Habit)
  | unsubscribe (id : Text)
  | createDeck (name : Option Text)
  | deleteDeck (name : Text)
  | clear
  | renameDeck (name newName : Text)
  | setHidden (name : Text) (hidden : Bool)
  | toggleHidden (name : Text)
  | moveDeck (name : Text) (offset : Int)
  | addEntry (name content : Text) (weight : Option Text)
  | updateEntry (name : Text) (index : Int) (content : Text) (weight : Option Text)
  | removeEntry (name : Text) (index : Int)
  | moveEntry (name : Text) (index offset : Int)
  | draw (name : Text)
  | resolve (text : Text)
  | distribution (name : Text)
  | exportDecks (indent : Option Int)
  | importDecks (payload : Payload) (merge : Bool)
  | assign (field : Settings.Field) (value : Json)

inductive Reply
  | done
  | flag (value : Bool)
  | text (value : Text)
  | texts (values : List Text)
  | listing (all visible displayed : List Text)
  | place (index : Nat)
  | entries (values : List Entry)
  | slices (values : List Slice)

def freshRecord (s : Store) : Store :=
  { s with
    consumed := []
    warnings := []
    host := { s.host with happened := [], heard := [] } }

def perform (s : Store) : Operation → Outcome Store Reply
  | .names => (s, .ok (.listing s.names s.visibleNames s.displayNames))
  | .contains name => (s, .ok (.flag (s.has name)))
  | .search keyword => (s, .ok (.texts (s.search keyword)))
  | .rawEntries name => (s, (s.require name).map .texts)
  | .entries name => (s, (s.entryRecords name).map .entries)
  | .subscribe id habit => ({ s with host := s.host.subscribe id habit }, .ok .done)
  | .unsubscribe id => ({ s with host := s.host.unsubscribe id }, .ok .done)
  | .createDeck name => (s.createDeck name).map .text
  | .deleteDeck name => (s.deleteDeck name).map fun _ => .done
  | .clear => s.clear.map fun _ => .done
  | .renameDeck name newName => (s.renameDeck name newName).map .text
  | .setHidden name hidden => (s.setHidden name hidden).map .text
  | .toggleHidden name => (s.toggleHidden name).map .text
  | .moveDeck name offset => (s.moveDeck name offset).map .flag
  | .addEntry name content weight => (s.addEntry name content weight).map .place
  | .updateEntry name index content weight =>
    (s.updateEntry name index content weight).map fun _ => .done
  | .removeEntry name index => (s.removeEntry name index).map .text
  | .moveEntry name index offset => (s.moveEntry name index offset).map .flag
  | .draw name => (s.draw name).map .text
  | .resolve text => (s.resolve text).map .text
  | .distribution name => (s.distribution name).map .slices
  | .exportDecks indent => (s, .ok (.text (s.exportText indent)))
  | .importDecks payload merge => (s.importDecks payload merge).map .texts
  | .assign field value =>
    (Outcome.of s (s.settings.assign field value)).andThen fun s settings =>
      ({ s with settings }, .ok .done)

def step (s : Store) (op : Operation) : Outcome Store Reply := s.freshRecord.perform op

/-- The state after some operations, failed ones included. -/
def run (s : Store) (ops : List Operation) : Store := ops.foldl (fun s op => (s.step op).1) s

end DrawPile.Store
