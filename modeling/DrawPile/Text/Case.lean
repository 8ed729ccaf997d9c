import DrawPile.Text.CaseTable

/-! Small letters. Every character maps on its own, but for the capital sigma, which has a
second small form at the end of a word. -/
namespace DrawPile.Text

def CaseRun.image? (r : CaseRun) (n : Nat) : Option Nat :=
  if r.first ≤ n ∧ n ≤ r.last ∧ (n - r.first) % r.step = 0 then
    some (r.target + (n - r.first))
  else none

/- The capital I with a dot keeps its dot as a mark of its own. -/
def lowerChar (c : Char) : Text :=
  if c.toNat = 0x130 then ['i', Char.ofNat 0x307]
  else match lowerRuns.findSome? (·.image? c.toNat) with
    | some n => [Char.ofNat n]
    | none => [c]

def isCased (c : Char) : Bool := inRanges casedRanges c

def isCaseIgnorable (c : Char) : Bool := inRanges caseIgnorableRanges c

def meetsCased (t : Text) : Bool :=
  match t.dropWhile isCaseIgnorable with
  | [] => false
  | c :: _ => isCased c

/- `before` is the text already passed, nearest character first. -/
def lowerFrom (before : Text) : Text → Text
  | [] => []
  | c :: after =>
    let small :=
      if c.toNat = 0x3a3 then
        if meetsCased before && !meetsCased after then [Char.ofNat 0x3c2]
        else [Char.ofNat 0x3c3]
      else lowerChar c
    small ++ lowerFrom (c :: before) after

def lower (t : Text) : Text := lowerFrom [] t

end DrawPile.Text
