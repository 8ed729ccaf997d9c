import DrawPile.Text.Quoted

/-! What can go wrong, by cause, and the sentences that say so. -/
namespace DrawPile

inductive Fault
  | tooSmall
  | tooShort
  | notText
  | notInteger
  | fractional
  | notFinite
  | outOfSize
  | unreadable
  deriving DecidableEq, Repr

def Fault.name : Fault → Text
  | .tooSmall => "greater_than_equal".toList
  | .tooShort => "string_too_short".toList
  | .notText => "string_type".toList
  | .notInteger => "int_type".toList
  | .fractional => "int_from_float".toList
  | .notFinite => "finite_number".toList
  | .outOfSize => "int_parsing_size".toList
  | .unreadable => "int_parsing".toList

inductive Error
  /-- Nothing to draw from; an empty wording asks for the usual sentence. -/
  | emptyPopulation (wording : Text) (deck : Option Text)
  /-- References were left when the passes, or the draws if given, were used up. -/
  | unfinished (pass : Int) (text : Text) (draws : Option Int)
  | unknownDeck (name : Text)
  | nameConflict (name : Text) (issues : List Text)
  | badImport (reason : Text)
  | badIndex (deck : Text) (size : Nat) (index : Int)
  | invalid (faults : List (Text × Fault))
  | limitTooSmall (limit : Text)
  | tooManyDigits (digits : Nat)
  | unwritable
  | integerTooLarge
  | wholeOfNan
  | wholeOfInfinity
  | listener (id : Text)
  deriving DecidableEq, Repr

namespace Error

def previewLength : Nat := 60

def preview (t : Text) : Text :=
  if t.length ≤ previewLength then t else t.take previewLength ++ "...".toList

def emptyMessage (wording : Text) (deck : Option Text) : Text :=
  if wording ≠ [] then wording
  else match deck with
    | none => "Cannot draw from an empty population (total weight is 0).".toList
    | some name => "Cannot draw from deck '".toList ++ name ++
        "': it is missing or has no entries.".toList

def unfinishedMessage (pass : Int) (text : Text) (draws : Option Int) : Text :=
  let limit := match draws with
    | none => "within ".toList ++ Text.ofInt pass ++ " passes".toList
    | some n => "within ".toList ++ Text.ofInt n ++ " draws (pass ".toList ++
        Text.ofInt pass ++ ")".toList
  "Reference resolution did not finish ".toList ++ limit ++
    ". A deck probably references itself with replacement. Last text: ".toList ++
    Text.quoted (preview text)

def conflictMessage (name : Text) (issues : List Text) : Text :=
  let detail := Text.join [' '] issues
  if detail ≠ [] then detail
  else "The name '".toList ++ name ++ "' is already in use.".toList

def conversionMessage (detail : Text) : Text :=
  "Exceeds the limit (".toList ++ Text.ofNat Text.maxDigits ++
    " digits) for integer string conversion".toList ++ detail ++
    "; use sys.set_int_max_str_digits() to increase the limit".toList

def message : Error → Text
  | .emptyPopulation wording deck => emptyMessage wording deck
  | .unfinished pass text draws => unfinishedMessage pass text draws
  | .unknownDeck name => "No deck named '".toList ++ name ++ "' exists.".toList
  | .nameConflict name issues => conflictMessage name issues
  | .badImport reason => reason
  | .badIndex deck size index =>
    "Deck '".toList ++ deck ++ "' has ".toList ++ Text.ofNat size ++ " entries; index ".toList ++
      Text.ofInt index ++ " is out of range.".toList
  | .invalid faults =>
    Text.join "; ".toList (faults.map fun f => f.1 ++ ": ".toList ++ f.2.name)
  | .limitTooSmall limit => limit ++ " must be at least 1".toList
  | .tooManyDigits digits =>
    conversionMessage (": value has ".toList ++ Text.ofNat digits ++ " digits".toList)
  | .unwritable => conversionMessage []
  | .integerTooLarge => "int too large to convert to float".toList
  | .wholeOfNan => "cannot convert float NaN to integer".toList
  | .wholeOfInfinity => "cannot convert float infinity to integer".toList
  | .listener id => "listener ".toList ++ id

end Error

end DrawPile
