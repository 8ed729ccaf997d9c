import DrawPile.Catalog
import DrawPile.Chance
import DrawPile.Entry
import DrawPile.Reference.Token

/-! What references draw from. Drawing by name picks an entry evenly, whatever it weighs; a name
without entries gives a diagnostic in place of a draw. -/
namespace DrawPile

abbrev Decks := Catalog (List Text)

inductive Warning
  | repaired (issue : Text)
  | missingDeck (name : Text)
  deriving DecidableEq, Repr

def Warning.message : Warning → Text
  | .repaired issue => "Repairing deck data: ".toList ++ issue
  | .missingDeck name => "Reference to missing or empty deck '".toList ++ name ++ ['\'']

structure Removal where
  deck : Text
  entry : Text
  deriving DecidableEq, Repr

/-- Decks and a random source, with a record of what was done: references replaced by the
resolution under way, entries taken out, warnings given. `host` is for an observer. -/
structure Table (σ : Type) where
  decks : Decks
  source : Source
  host : σ
  replaced : Nat := 0
  consumed : List Removal := []
  warnings : List Warning := []

/-- Told of each removal once it is done; an error stops the resolution. -/
abbrev Observer (σ : Type) := Removal → σ → Outcome σ Unit

def Observer.idle {σ : Type} : Observer σ := fun _ s => (s, .ok ())

def invalidReference (name : Text) : Text :=
  "[invalid reference: collection \"".toList ++ name ++ "\" missing or empty]".toList

/- No list is so long that its length is beyond the floats; if one were, its last entry would be
picked. -/
def Source.pick (s : Source) (length : Nat) : Nat × Source :=
  match pickIndex length s with
  | (s, .ok n) => (n.toNat, s)
  | (s, .error _) => (length - 1, s)

namespace Table
variable {σ : Type}

def entries (t : Table σ) (name : Text) : List Text := (t.decks.get? name).getD []

def take (t : Table σ) (observe : Observer σ) (name raw : Text) (place : Nat) :
    Outcome (Table σ) Unit :=
  let (host, result) := observe ⟨name, raw⟩ t.host
  ({ t with
      decks := t.decks.put name ((t.entries name).eraseIdx place)
      consumed := t.consumed ++ [⟨name, raw⟩]
      host }, result)

def drawFrom (t : Table σ) (observe : Observer σ) (form : Reference.Form) (name : Text) :
    Outcome (Table σ) Text :=
  match t.entries name with
  | [] =>
    ({ t with warnings := t.warnings ++ [.missingDeck name] }, .ok (invalidReference name))
  | first :: rest =>
    let picked := t.source.pick (rest.length + 1)
    let raw := ((first :: rest)[picked.1]?).getD first
    let t := { t with source := picked.2 }
    match form with
    | .keeping => (t, .ok (Entry.contentOf raw))
    | .taking => (t.take observe name raw picked.1).map fun _ => Entry.contentOf raw

end Table

end DrawPile
