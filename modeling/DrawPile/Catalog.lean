import DrawPile.Text.Basic

/-! Values under names, in the order in which the names were first entered. A later value for a
name takes the place of the earlier one. -/
namespace DrawPile

abbrev Catalog (β : Type) := List (Text × β)

namespace Catalog
variable {β : Type}

def names (c : Catalog β) : List Text := c.map (·.1)

def get? (name : Text) : Catalog β → Option β
  | [] => none
  | (n, v) :: c => if n = name then some v else get? name c

def put (name : Text) (value : β) : Catalog β → Catalog β
  | [] => [(name, value)]
  | (n, v) :: c => if n = name then (n, value) :: c else (n, v) :: put name value c

/-- The entries of `more` put in one after another. -/
def putAll (c more : Catalog β) : Catalog β := more.foldl (fun c e => c.put e.1 e.2) c

def ofList (entries : List (Text × β)) : Catalog β := putAll [] entries

def erase (name : Text) (c : Catalog β) : Catalog β := c.filter fun e => decide (e.1 ≠ name)

end Catalog

end DrawPile
