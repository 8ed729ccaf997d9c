import DrawPile.Json

/-! Entries of a deck. A stored entry is its content, with a weight expression between two
markers in front if it has one. An entry can be made of fields of unknown kind too. -/
namespace DrawPile

structure Entry where
  weight : Option Text
  content : Text
  deriving DecidableEq, Repr

namespace Entry

def marker : Text := [':', ':']

def splitMarker? : Text → Option (Text × Text)
  | [] => none
  | [_] => none
  | c :: d :: t =>
    if c = ':' ∧ d = ':' then some ([], t)
    else (splitMarker? (d :: t)).map fun (before, after) => (c :: before, after)

/-- Reads a stored entry. One that opens with a marker and has no second is all content. -/
def decode (raw : Text) : Entry :=
  match raw with
  | ':' :: ':' :: rest =>
    match splitMarker? rest with
    | some (weight, content) => ⟨some weight, content⟩
    | none => ⟨none, raw⟩
  | _ => ⟨none, raw⟩

/-- A weight of one needs no expression. -/
def isImplicit : Option Text → Bool
  | none => true
  | some w => w == [] || w == ['1']

def encode (content : Text) (weight : Option Text) : Text :=
  if isImplicit weight then content
  else marker ++ weight.getD [] ++ marker ++ content

def toRaw (e : Entry) : Text := encode e.content e.weight

def contentOf (raw : Text) : Text := (decode raw).content

def readWeight : Option Json → Except Fault (Option Text)
  | none => .ok none
  | some .null => .ok none
  | some (.text t) => .ok (some t)
  | some _ => .error .notText

def readContent : Option Json → Except Fault Text
  | none => .ok []
  | some (.text t) => .ok t
  | some _ => .error .notText

def weightField : Text := "weight_expr".toList
def contentField : Text := "content".toList

/-- The entry of some fields: the weight may be null or missing, the content may be missing. -/
def ofCatalog (given : Catalog Json) : Except Error Entry :=
  match readWeight (given.get? weightField), readContent (given.get? contentField) with
  | .ok weight, .ok content => .ok ⟨weight, content⟩
  | .error f, .ok _ => .error (.invalid [(weightField, f)])
  | .ok _, .error f => .error (.invalid [(contentField, f)])
  | .error f, .error g => .error (.invalid [(weightField, f), (contentField, g)])

end Entry

end DrawPile
