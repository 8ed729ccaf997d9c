import DrawPile.Sample

/-! Charts of a deck's odds: each entry's weight, as a draw would weigh it, and its share of the
sum. Dice are rolled once for the chart. -/
namespace DrawPile

def truncate (text : Text) (length : Int) (suffix : Text) : Text :=
  if (text.length : Int) ≤ length then text else Text.takeInt length text ++ suffix

def ellipsis : Text := "...".toList

def entryLabel (index : Int) (content : Text) (length : Int) : Text :=
  '#' :: Text.ofInt (index + 1) ++ ": ".toList ++ truncate content length ellipsis

structure Slice where
  index : Nat
  label : Text
  weight : Nat
  probability : Binary64
  deriving DecidableEq, Repr

/-- A probability in percent, half up. -/
def percentage (probability : Binary64) : Except Error Int :=
  match (probability.mul .hundred).add .half with
  | .nan => .error .wholeOfNan
  | .infinite _ => .error .wholeOfInfinity
  | .finite s r => .ok (((Binary64.finite s r).truncate?).getD 0)

/-- Every entry's place and label with its weight, dice rolled in order; the first place is
`index`. -/
def labelEntries (labelLength : Int) : Nat → List Text → Source →
    Outcome Source (List (Item (Nat × Text)))
  | _, [], s => (s, .ok [])
  | index, raw :: raws, s =>
    let entry := Entry.decode raw
    let label := entryLabel index entry.content labelLength
    (Weight.ofEntry entry s).andThen fun s weight =>
      (labelEntries labelLength (index + 1) raws s).map (⟨(index, label), weight⟩ :: ·)

def slice (sum : Nat) (row : Item (Nat × Text)) : Slice :=
  ⟨row.value.1, row.value.2, row.weight, Binary64.ofRatio row.weight sum⟩

def distribution (entries : List Text) (labelLength : Int) (s : Source) :
    Outcome Source (List Slice) :=
  (labelEntries labelLength 0 entries s).map fun rows => rows.map (slice (Item.total rows))

end DrawPile
