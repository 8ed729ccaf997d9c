import DrawPile.Weight

/-! Weighted draws. An item is found by walking along the weights to a whole number below their
sum, as if every item stood in the list as many times as it weighs. -/
namespace DrawPile

structure Item (α : Type) where
  value : α
  weight : Nat
  deriving DecidableEq, Repr

namespace Item
variable {α : Type}

def total : List (Item α) → Nat
  | [] => 0
  | i :: items => i.weight + total items

def locate? : Nat → List (Item α) → Option α
  | _, [] => none
  | place, i :: items =>
    if place < i.weight then some i.value else locate? (place - i.weight) items

def ofInt? (value : α) (weight : Int) : Except Error (Item α) :=
  if weight < 0 then .error (.invalid [("weight".toList, .tooSmall)])
  else .ok ⟨value, weight.toNat⟩

/- The last item stands in for a place beyond the sum, which no draw asks for. -/
def draw (items : List (Item α)) (s : Source) : Outcome Source α :=
  match items.getLast? with
  | none => (s, .error (.emptyPopulation [] none))
  | some last =>
    let sum := total items
    if sum = 0 then (s, .error (.emptyPopulation [] none))
    else (s.scaled sum).map fun n => (locate? (min n.toNat (sum - 1)) items).getD last.value

end Item

def weighEntries : List Text → Source → Outcome Source (List (Item Text))
  | [], s => (s, .ok [])
  | raw :: raws, s =>
    (Weight.ofEntry (Entry.decode raw) s).andThen fun s weight =>
      (weighEntries raws s).map (⟨Entry.contentOf raw, weight⟩ :: ·)

def drawEntry (entries : List Text) (deck : Option Text) (s : Source) : Outcome Source Text :=
  if entries = [] then (s, .error (.emptyPopulation [] deck))
  else (weighEntries entries s).andThen fun s items => Item.draw items s

end DrawPile
