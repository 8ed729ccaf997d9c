import DrawPile.Text.Basic

/-! References in a text. A token runs from an opening brace to the first closing brace after it;
with a percent sign after the opening brace it keeps the entry it draws in its deck, without one
it takes the entry out. A line feed may stand only among the blanks around the name of a taking
token. An opening brace that starts no token is text. -/
namespace DrawPile.Reference

inductive Form
  | keeping
  | taking
  deriving DecidableEq, Repr

/-- The name part of what stands between the braces, if that makes a token of the form. -/
def namePart? (form : Form) (inside : Text) : Option Text :=
  match form, inside with
  | .keeping, '%' :: name => if '\n' ∈ name then none else some name
  | .keeping, _ => none
  | .taking, '%' :: _ => none
  | .taking, name => if '\n' ∈ Text.trim name then none else some name

def token? (form : Form) (t : Text) : Option (Text × Text) :=
  match t.dropWhile (· != '\x7d') with
  | [] => none
  | _ :: after =>
    (namePart? form (t.takeWhile (· != '\x7d'))).map fun name => (Text.trim name, after)

structure Split where
  before : Text
  name : Text
  after : Text
  deriving DecidableEq, Repr

/- `passed` is the text already passed, last character first. -/
def splitFrom (form : Form) (passed : Text) : Text → Option Split
  | [] => none
  | c :: t =>
    match if c = '\x7b' then token? form t else none with
    | some (name, after) => some ⟨passed.reverse, name, after⟩
    | none => splitFrom form (c :: passed) t

def split? (form : Form) (t : Text) : Option Split := splitFrom form [] t

theorem token?_length {form : Form} {t name after : Text}
    (found : token? form t = some (name, after)) : after.length < t.length := by
  unfold token? at found
  have shorter := (List.dropWhile_sublist (· != '\x7d') (l := t)).length_le
  split at found
  · cases found
  · next _ c rest dropped =>
    obtain ⟨_, _, same⟩ := Option.map_eq_some_iff.1 found
    cases same
    rw [dropped, List.length_cons] at shorter
    omega

theorem splitFrom_length {form : Form} {passed t : Text} {s : Split}
    (found : splitFrom form passed t = some s) : s.after.length < t.length := by
  induction t generalizing passed with
  | nil => cases found
  | cons c t ih =>
    rw [splitFrom] at found
    split at found
    · next name after token =>
      cases found
      split at token
      · exact Nat.lt_succ_of_lt (token?_length token)
      · cases token
    · exact Nat.lt_succ_of_lt (ih found)

structure Segment where
  before : Text
  name : Text
  deriving DecidableEq, Repr

/-- The tokens of a form from left to right, and the text after the last. -/
def segments (form : Form) (t : Text) : List Segment × Text :=
  match _found : split? form t with
  | none => ([], t)
  | some s =>
    let (rest, tail) := segments form s.after
    (⟨s.before, s.name⟩ :: rest, tail)
termination_by t.length
decreasing_by exact splitFrom_length _found

def hasReferences (t : Text) : Bool :=
  (split? .keeping t).isSome || (split? .taking t).isSome

end DrawPile.Reference
