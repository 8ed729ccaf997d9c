import DrawPile.Table

/-! Deck data from outside. Decks should be an object of lists of texts; each departure is an
issue, and all but the outermost are repaired: null is an empty deck, any other single value is a
deck of one entry, and an entry that is no text is written out as one. That fails if an integer in
it has too many digits. An interpreter's limit to the depth of calls is not modelled. -/
namespace DrawPile

inductive Issue
  | notObject
  | notList (deck : Text) (found : Json)
  | notText (deck : Text) (index : Nat) (found : Json)

namespace Issue

def kindName : Json → Text
  | .null => "null".toList
  | .bool _ => "a boolean".toList
  | .int _ => "a number".toList
  | .float _ => "a number".toList
  | .text _ => "text".toList
  | .list _ => "a list".toList
  | .object _ => "an object".toList

def notObjectMessage : Text :=
  "Deck data must be a JSON object mapping deck names to entry lists.".toList

def message : Issue → Text
  | .notObject => notObjectMessage
  | .notList deck found =>
    "Deck '".toList ++ deck ++ "' should be a list of entries but is ".toList ++
      kindName found ++ ['.']
  | .notText deck index found =>
    "Entry ".toList ++ Text.ofNat index ++ " of deck '".toList ++ deck ++
      "' should be text but is ".toList ++ kindName found ++ ['.']

def place : Issue → List Text
  | .notObject => []
  | .notList deck _ => [deck]
  | .notText deck index _ => [deck, Text.ofNat index]

/- Places compare as words do, name by name and character by character. -/
def notAfter (a b : Issue) : Bool := !decide (b.place < a.place)

def ofEntries (deck : Text) (index : Nat) : List Json → List Issue
  | [] => []
  | .text _ :: rest => ofEntries deck (index + 1) rest
  | v :: rest => .notText deck index v :: ofEntries deck (index + 1) rest

def ofDeck (deck : Text) : Json → List Issue
  | .list entries => ofEntries deck 0 entries
  | v => [.notList deck v]

/-- The issues of deck data, sorted by place. -/
def all : Json → List Issue
  | .object members => (members.flatMap fun m => ofDeck m.1 m.2).mergeSort notAfter
  | _ => [.notObject]

end Issue

namespace Decks

def entryText : Json → Except Error Text
  | .text t => .ok t
  | .null => .ok "null".toList
  | .bool b => .ok (if b then "true".toList else "false".toList)
  | .int n => if Text.isWritable n then .ok (Text.ofInt n) else .error .unwritable
  | .float x => .ok x.toText
  | v => v.dump none

def repairDeck : Json → Except Error (List Text)
  | .null => .ok []
  | .list entries => entries.mapM entryText
  | v => (entryText v).map ([·])

def repair (members : Catalog Json) : Except Error Decks :=
  members.mapM fun m => (repairDeck m.2).map fun entries => (m.1, entries)

def repairWarnings (members : Catalog Json) : List Warning :=
  (Issue.all (.object members)).map fun i => .repaired i.message

def toJson (decks : Decks) : Json := .object (decks.map fun d => (d.1, .list (d.2.map .text)))

end Decks

end DrawPile
