import DrawPile.Catalog
import DrawPile.Error
import DrawPile.Number.Shortest

/-! JSON values and their texts. Whole numbers are of any size and stay apart from floats; the
members of an object keep their order. A text stands on one line, or has every item on a line of its
own, set in by a fixed number of spaces for each level. Only quotes, backslashes and control
characters are escaped. Not modelled are an interpreter's limits: how deep calls may go, which a
value nested very deeply exceeds, and how wide an indent may be. -/
namespace DrawPile

inductive Json
  | null
  | bool (value : Bool)
  | int (value : Int)
  | float (value : Binary64)
  | text (value : Text)
  | list (items : List Json)
  | object (members : List (Text × Json))

namespace Json

def writeChar (c : Char) : Text :=
  if c = '"' then ['\\', '"']
  else if c = '\\' then ['\\', '\\']
  else if c = '\n' then ['\\', 'n']
  else if c = '\r' then ['\\', 'r']
  else if c = '\t' then ['\\', 't']
  else if c.toNat = 8 then ['\\', 'b']
  else if c.toNat = 12 then ['\\', 'f']
  else if c.toNat < 0x20 then ['\\', 'u'] ++ Text.hexDigits 4 c.toNat
  else [c]

/- Each writer puts its text in front of what follows. -/

def writeText (t rest : Text) : Text := '"' :: (t.flatMap writeChar ++ '"' :: rest)

/-- A new line set in for a level; nothing when all stands on one line. -/
def lineBreak (indent : Option Nat) (level : Nat) (rest : Text) : Text :=
  match indent with
  | none => rest
  | some width => '\n' :: (List.replicate (width * level) ' ' ++ rest)

def separator (indent : Option Nat) (level : Nat) (rest : Text) : Text :=
  match indent with
  | none => ',' :: ' ' :: rest
  | some _ => ',' :: lineBreak indent level rest

mutual

def writeAt (indent : Option Nat) (level : Nat) : Json → Text → Text
  | .null, rest => "null".toList ++ rest
  | .bool value, rest => (if value then "true".toList else "false".toList) ++ rest
  | .int n, rest => Text.ofInt n ++ rest
  | .float x, rest => x.toTextWith "Infinity".toList "NaN".toList ++ rest
  | .text t, rest => writeText t rest
  | .list [], rest => '[' :: ']' :: rest
  | .list (v :: vs), rest =>
    '[' :: lineBreak indent (level + 1) (writeAt indent (level + 1) v
      (writeItems indent (level + 1) vs (lineBreak indent level (']' :: rest))))
  | .object [], rest => '\x7b' :: '\x7d' :: rest
  | .object ((name, v) :: ms), rest =>
    '\x7b' :: lineBreak indent (level + 1) (writeText name (':' :: ' ' ::
      writeAt indent (level + 1) v
        (writeMembers indent (level + 1) ms (lineBreak indent level ('\x7d' :: rest)))))

def writeItems (indent : Option Nat) (level : Nat) : List Json → Text → Text
  | [], rest => rest
  | v :: vs, rest =>
    separator indent level (writeAt indent level v (writeItems indent level vs rest))

def writeMembers (indent : Option Nat) (level : Nat) : List (Text × Json) → Text → Text
  | [], rest => rest
  | (name, v) :: ms, rest =>
    separator indent level (writeText name (':' :: ' ' ::
      writeAt indent level v (writeMembers indent level ms rest)))

end

def write (indent : Option Nat) (v : Json) : Text := writeAt indent 0 v []

mutual

/-- Whether each integer in a value can be written. -/
def writable : Json → Bool
  | .int n => Text.isWritable n
  | .list items => itemsWritable items
  | .object members => membersWritable members
  | _ => true

def itemsWritable : List Json → Bool
  | [] => true
  | v :: vs => writable v && itemsWritable vs

def membersWritable : List (Text × Json) → Bool
  | [] => true
  | (_, v) :: ms => writable v && membersWritable ms

end

theorem itemsWritable_eq_all (items : List Json) : itemsWritable items = items.all writable := by
  induction items with
  | nil => rfl
  | cons v items ih => rw [itemsWritable, ih, List.all_cons]

theorem membersWritable_eq_all (members : List (Text × Json)) :
    membersWritable members = members.all fun m => m.2.writable := by
  induction members with
  | nil => rfl
  | cons m members ih => rw [membersWritable, ih, List.all_cons]

/-- The text of a value, refused if an integer in it has too many digits. -/
def dump (indent : Option Nat) (v : Json) : Except Error Text :=
  if v.writable then .ok (v.write indent) else .error .unwritable

end Json

end DrawPile
