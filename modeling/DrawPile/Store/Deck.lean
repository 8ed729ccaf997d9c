import DrawPile.Store.Basic

/-! Making, dropping, naming and ordering the decks of a store. -/
namespace DrawPile

def exchange {α : Type} (xs : List α) (i j : Nat) : List α :=
  match xs[i]?, xs[j]? with
  | some a, some b => (xs.set i b).set j a
  | _, _ => xs

def placeAt? (size index : Nat) (offset : Int) : Option Nat :=
  let other := (index : Int) + offset
  if offset ≠ 0 ∧ 0 ≤ other ∧ other < size then some other.toNat else none

def Decks.rename (decks : Decks) (old new : Text) : Decks :=
  decks.map fun d => if d.1 = old then (new, d.2) else d

namespace Store

def numbered (name : Text) : Nat → Text
  | 0 => name
  | n + 1 => name ++ '(' :: Text.ofNat (n + 1) ++ [')']

/-- The first numbered name without a conflict; as many numbers as there are decks suffice. -/
def freeName (existing : List Text) (name : Text) : Text :=
  let candidates := (List.range (existing.length + 1)).map (numbered name)
  (candidates.find? fun c => (Name.conflicts c existing none).isEmpty).getD name

def nonBlankOr (fallback t : Text) : Text := if Text.trim t = [] then fallback else Text.trim t

def createDeck (s : Store) (name : Option Text) : Outcome Store Text :=
  let wanted := nonBlankOr s.settings.defaultDeckName (name.getD [])
  let free := freeName s.names wanted
  announce { s with decks := s.decks ++ [(free, [])] } .created free free

def deleteDeck (s : Store) (name : Text) : Outcome Store Unit :=
  s.withDeck name fun _ => announce { s with decks := s.decks.erase name } .deleted name ()

def announceDeleted : List Text → Store → Outcome Store Unit
  | [], s => (s, .ok ())
  | name :: rest, s => (s.announce .deleted name ()).andThen fun s _ => announceDeleted rest s

/-- All decks are gone before the first listener hears of it. -/
def clear (s : Store) : Outcome Store Unit := announceDeleted s.names { s with decks := [] }

def giveName (s : Store) (name target : Text) : Outcome Store Text :=
  match Name.conflicts target s.names (some name) with
  | [] => announce { s with decks := s.decks.rename name target } .renamed target target
  | issues => (s, .error (.nameConflict target issues))

/-- A hidden deck stays hidden. -/
def renameTarget (s : Store) (name newName : Text) : Text :=
  let target := nonBlankOr s.settings.untitledDeckName newName
  if Name.isHidden name && !Name.isHidden target then Name.hide target else target

def renameDeck (s : Store) (name newName : Text) : Outcome Store Text :=
  s.withDeck name fun _ =>
    let target := s.renameTarget name newName
    if target = name then (s, .ok name) else s.giveName name target

def setHidden (s : Store) (name : Text) (hidden : Bool) : Outcome Store Text :=
  s.withDeck name fun _ =>
    if Name.isHidden name = hidden then (s, .ok name)
    else s.giveName name (if hidden then Name.hide name else Name.base name)

def toggleHidden (s : Store) (name : Text) : Outcome Store Text :=
  s.setHidden name (!Name.isHidden name)

def moveDeck (s : Store) (name : Text) (offset : Int) : Outcome Store Bool :=
  s.withDeck name fun _ =>
    let index := s.names.idxOf name
    match placeAt? s.decks.length index offset with
    | none => (s, .ok false)
    | some other =>
      announce { s with decks := exchange s.decks index other } .reordered name true

end Store

end DrawPile
