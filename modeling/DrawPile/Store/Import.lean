import DrawPile.Json.Reader
import DrawPile.Store.Basic

/-! Bringing deck data into a store, in place of its decks or on top of them. Data that spell a
surrogate alone are left out of account: no text can be made of them. -/
namespace DrawPile.Store

inductive Payload
  | text (t : Text)
  | bytes (b : List UInt8)
  | value (v : Json)

def invalidJsonMessage : Text := "The deck data is not valid JSON.".toList

/-- A value that is a text is read as one. -/
def Payload.read? : Payload → Option Json
  | .text t => Json.parse? t
  | .bytes b => Json.parseBytes? b
  | .value (.text t) => Json.parse? t
  | .value v => some v

def importObject (s : Store) (members : Catalog Json) (merge : Bool) :
    Outcome Store (List Text) :=
  (Outcome.of s (Decks.repair members)).andThen fun s imported =>
    let s := { s with warnings := s.warnings ++ Decks.repairWarnings members }
    let combined := if merge then s.decks.putAll imported else imported
    (Outcome.of s (checked combined)).andThen fun s decks =>
      announce { s with decks } .replaced [] imported.names

def importDecks (s : Store) (payload : Payload) (merge : Bool) : Outcome Store (List Text) :=
  match payload.read? with
  | none => (s, .error (.badImport invalidJsonMessage))
  | some (.object members) => s.importObject members merge
  | some _ => (s, .error (.badImport Issue.notObjectMessage))

end DrawPile.Store
