import DrawPile.Table

/-! Resolution of references. A pass replaces every keeping token of a text and then every taking
token, left to right; passes go on while there are tokens. The passes and the replacements of one
resolution are limited. -/
namespace DrawPile.Reference

structure Limits where
  passes : Nat
  draws : Nat
  deriving DecidableEq, Repr

/-- Both limits are at least one. -/
def Limits.ofInts? (passes draws : Int) : Except Error Limits :=
  if passes < 1 then .error (.limitTooSmall "max_depth".toList)
  else if draws < 1 then .error (.limitTooSmall "max_draws".toList)
  else .ok ⟨passes.toNat, draws.toNat⟩

structure Pass where
  number : Nat
  start : Text

variable {σ : Type}

def replace (limits : Limits) (observe : Observer σ) (pass : Pass) (form : Form) (name : Text)
    (t : Table σ) : Outcome (Table σ) Text :=
  if limits.draws ≤ t.replaced then
    (t, .error (.unfinished pass.number pass.start (some limits.draws)))
  else { t with replaced := t.replaced + 1 }.drawFrom observe form name

def fill (draw : Text → Table σ → Outcome (Table σ) Text) :
    List Segment → Text → Table σ → Outcome (Table σ) Text
  | [], tail, t => (t, .ok tail)
  | segment :: rest, tail, t =>
    (draw segment.name t).andThen fun t drawn =>
      (fill draw rest tail t).map fun filled => segment.before ++ drawn ++ filled

def sweep (limits : Limits) (observe : Observer σ) (pass : Pass) (form : Form) (text : Text)
    (t : Table σ) : Outcome (Table σ) Text :=
  fill (replace limits observe pass form) (segments form text).1 (segments form text).2 t

def runPass (limits : Limits) (observe : Observer σ) (number : Nat) (text : Text) (t : Table σ) :
    Outcome (Table σ) Text :=
  let pass : Pass := ⟨number, text⟩
  (sweep limits observe pass .keeping text t).andThen fun t swept =>
    sweep limits observe pass .taking swept t

/- `left` passes are left, the next of which has number `number`. -/
def runPasses (limits : Limits) (observe : Observer σ) :
    (left number : Nat) → Text → Table σ → Outcome (Table σ) Text
  | 0, _, text, t =>
    if hasReferences text then (t, .error (.unfinished limits.passes text none))
    else (t, .ok text)
  | left + 1, number, text, t =>
    if hasReferences text then
      (runPass limits observe number text t).andThen fun t text =>
        runPasses limits observe left (number + 1) text t
    else (t, .ok text)

def resolve (limits : Limits) (observe : Observer σ) (text : Text) (t : Table σ) :
    Outcome (Table σ) Text :=
  runPasses limits observe limits.passes 1 text { t with replaced := 0 }

end DrawPile.Reference
