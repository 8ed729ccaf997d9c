import DrawPile.Audience
import DrawPile.Name
import DrawPile.Repair
import DrawPile.Settings
import DrawPile.Text.Case

/-! A store of decks: a table whose observer is an audience, with settings. Here are what the
store shows and how it lets events happen. -/
namespace DrawPile

structure Store extends Table Audience where
  settings : Settings := {}

namespace Store

/-- Clashing names are refused, the second name of the first clash being named. -/
def checked (decks : Decks) : Except Error Decks :=
  match Name.clashes decks.names with
  | [] => .ok decks
  | (_, second) :: _ => .error (.nameConflict second (Name.clashIssues decks.names))

/-- A store of given deck data, with the warnings of its repair; anything but an object gives an
empty store. There are no warnings where repair fails: each issue quotes what it found, so the
first integer that cannot be written ends the search for them. -/
def ofJson (data : Json) (settings : Settings) (source : Source) : Outcome (List Warning) Store :=
  match data with
  | .object members =>
    (Outcome.of [] (Decks.repair members)).andThen fun _ decks =>
      (Outcome.of (Decks.repairWarnings members) (checked decks)).map fun decks =>
        { decks, source, host := {}, settings }
  | _ => ([], .ok { decks := [], source, host := {}, settings })

def names (s : Store) : List Text := s.decks.names

def visibleNames (s : Store) : List Text := s.names.filter fun n => !Name.isHidden n

def displayNames (s : Store) : List Text := s.names.map Name.base

def has (s : Store) (name : Text) : Bool := (s.decks.get? name).isSome

def search (s : Store) (keyword : Text) : List Text :=
  if keyword = [] then s.names
  else s.names.filter fun n => Text.hasPart (Text.lower keyword) (Text.lower (Name.base n))

def require (s : Store) (name : Text) : Except Error (List Text) :=
  match s.decks.get? name with
  | some entries => .ok entries
  | none => .error (.unknownDeck name)

/- Decks hold no integers, so all of it can be written; a limit to the width of an indent is not
modelled. -/
def exportText (s : Store) (indent : Option Int) : Text :=
  (Decks.toJson s.decks).write (indent.map Int.toNat)

def announce {α : Type} (s : Store) (event : Event) (deck : Text) (result : α) :
    Outcome Store α :=
  let (host, heard) := s.host.announce ⟨event, deck⟩
  ({ s with host }, heard.map fun _ => result)

def withDeck {α : Type} (s : Store) (name : Text) (f : List Text → Outcome Store α) :
    Outcome Store α :=
  (Outcome.of s (s.require name)).andThen fun _ entries => f entries

end Store

end DrawPile
