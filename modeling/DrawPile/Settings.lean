import DrawPile.Catalog
import DrawPile.Json
import DrawPile.Settings.Numeral

/-! Settings of a store. Limits are whole numbers from one on, names are not empty. Values are
read leniently: truth values, floats without a fraction and numerals count as whole numbers. -/
namespace DrawPile

structure Settings where
  maxDepth : Int := 64
  maxDraws : Int := 10000
  labelLength : Int := 15
  defaultDeckName : Text := "New Deck".toList
  untitledDeckName : Text := "Untitled Deck".toList
  deriving DecidableEq, Repr

namespace Settings

def standard : Settings := {}

inductive Field
  | maxDepth
  | maxDraws
  | labelLength
  | defaultDeckName
  | untitledDeckName
  deriving DecidableEq, Repr

def Field.all : List Field :=
  [.maxDepth, .maxDraws, .labelLength, .defaultDeckName, .untitledDeckName]

def Field.name : Field → Text
  | .maxDepth => "max_depth".toList
  | .maxDraws => "max_draws".toList
  | .labelLength => "label_length".toList
  | .defaultDeckName => "default_deck_name".toList
  | .untitledDeckName => "untitled_deck_name".toList

def Field.ofName? (name : Text) : Option Field := Field.all.find? fun f => f.name == name

/- Floats from 2^63 on are not taken for whole numbers. -/
def floatBound : Nat := 0x8000000000000000

def readFloat (x : Binary64) : Except Fault Int :=
  match x.floor?, x.toInt? with
  | none, _ => .error .notFinite
  | some _, none => .error .fractional
  | some _, some n => if n.natAbs < floatBound then .ok n else .error .outOfSize

def readInt : Json → Except Fault Int
  | .int n => .ok n
  | .bool b => .ok (if b then 1 else 0)
  | .float x => readFloat x
  | .text t => Numeral.read t
  | _ => .error .notInteger

def readLimit (v : Json) : Except Fault Int :=
  match readInt v with
  | .ok n => if n < 1 then .error .tooSmall else .ok n
  | .error f => .error f

def readName : Json → Except Fault Text
  | .text t => if t = [] then .error .tooShort else .ok t
  | _ => .error .notText

/-- The settings with one field set, or why the value is refused. -/
def set (s : Settings) (field : Field) (v : Json) : Except Fault Settings :=
  match field with
  | .maxDepth => (readLimit v).map fun n => { s with maxDepth := n }
  | .maxDraws => (readLimit v).map fun n => { s with maxDraws := n }
  | .labelLength => (readLimit v).map fun n => { s with labelLength := n }
  | .defaultDeckName => (readName v).map fun t => { s with defaultDeckName := t }
  | .untitledDeckName => (readName v).map fun t => { s with untitledDeckName := t }

def assign (s : Settings) (field : Field) (v : Json) : Except Error Settings :=
  match s.set field v with
  | .ok s => .ok s
  | .error f => .error (.invalid [(field.name, f)])

/-- The faults of the values given for some fields, in the order of the fields. -/
def faults (given : Catalog Json) (fields : List Field) : List (Text × Fault) :=
  fields.filterMap fun field =>
    match given.get? field.name with
    | none => none
    | some v =>
      match standard.set field v with
      | .ok _ => none
      | .error f => some (field.name, f)

def setGiven (given : Catalog Json) (s : Settings) (field : Field) : Settings :=
  match given.get? field.name with
  | none => s
  | some v =>
    match s.set field v with
    | .ok s => s
    | .error _ => s

/-- Settings from some of the fields; names of no field are passed over. -/
def ofCatalog (given : Catalog Json) : Except Error Settings :=
  match faults given Field.all with
  | [] => .ok (Field.all.foldl (setGiven given) standard)
  | found => .error (.invalid found)

end Settings

end DrawPile
