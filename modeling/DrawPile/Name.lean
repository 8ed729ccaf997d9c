import DrawPile.Text.Basic

/-! Deck names. A name that begins with an underscore is hidden; without it, it is the base name,
and two decks may not share a base name. -/
namespace DrawPile.Name

def hiddenMark : Char := '_'

def isHidden (name : Text) : Bool := name.head? == some hiddenMark

def base (name : Text) : Text := if isHidden name then name.drop 1 else name

def hide (name : Text) : Text := hiddenMark :: name

def conflict? (name other : Text) : Option Text :=
  if other = name then some ("A deck named '".toList ++ name ++ "' already exists.".toList)
  else if base other = base name then
    some ("The name '".toList ++ name ++ "' clashes with deck '".toList ++ other ++
      "': hidden and visible decks cannot share the base name '".toList ++ base name ++
      "'.".toList)
  else none

/-- What stands against a name beside others, one of which may be left out of account. -/
def conflicts (name : Text) (existing : List Text) (ignored : Option Text) : List Text :=
  (existing.filter fun other => decide (some other ≠ ignored)).filterMap (conflict? name)

def clashesAfter (earlier : List Text) : List Text → List (Text × Text)
  | [] => []
  | name :: rest =>
    let later := clashesAfter (earlier ++ [name]) rest
    match earlier.find? fun other => base other == base name with
    | some first => (first, name) :: later
    | none => later

/-- Each name whose base name occurred before, with the first name that has it. -/
def clashes (names : List Text) : List (Text × Text) := clashesAfter [] names

def clashIssue (first second : Text) : Text :=
  "Decks '".toList ++ first ++ "' and '".toList ++ second ++ "' share the base name '".toList ++
    base second ++ "'. Rename or remove one of them.".toList

def clashIssues (names : List Text) : List Text :=
  (clashes names).map fun c => clashIssue c.1 c.2

end DrawPile.Name
