import DrawPile.Proofs.Reference.Conservation
import DrawPile.Proofs.Reference.Pass

/-! Wider limits. Limits only stop a resolution: what they let through is what any wider limits
let through, and what they stop is the beginning of what wider limits do. -/
namespace DrawPile.Reference
variable {σ : Type} {observe : Observer σ}

/- The first outcome is the second, or a limit ended it where the second went on. -/
inductive CutShort (observe : Observer σ) :
    Outcome (Table σ) Text → Outcome (Table σ) Text → Prop
  | same (o : Outcome (Table σ) Text) : CutShort observe o o
  | stopped {t : Table σ} {o : Outcome (Table σ) Text} (pass : Int) (text : Text)
      (draws : Option Int) (further : Performs observe t o) :
      CutShort observe (t, .error (.unfinished pass text draws)) o

namespace CutShort

theorem andThen {o o' : Outcome (Table σ) Text} {f f' : Table σ → Text → Outcome (Table σ) Text}
    (first : CutShort observe o o') (rest : ∀ t text, CutShort observe (f t text) (f' t text))
    (goes_on : ∀ t text, Performs observe t (f' t text)) :
    CutShort observe (o.andThen f) (o'.andThen f') := by
  cases first with
  | same =>
    rcases o with ⟨t, e | text⟩
    · exact .same _
    · exact rest t text
  | stopped pass text draws further => exact .stopped pass text draws (further.andThen goes_on)

theorem map {o o' : Outcome (Table σ) Text} (f : Text → Text) (first : CutShort observe o o') :
    CutShort observe (o.map f) (o'.map f) :=
  first.andThen (fun _ _ => .same _) fun _ text => .refl (f text)

end CutShort

theorem cutShort_replace {small wide : Limits} (draws : small.draws ≤ wide.draws) (pass : Pass)
    (form : Form) (name : Text) (t : Table σ) :
    CutShort observe (replace small observe pass form name t)
      (replace wide observe pass form name t) := by
  by_cases spent : small.draws ≤ t.replaced
  · rw [replace_of_spent spent]
    exact .stopped _ _ _ (performs_replace wide pass form name)
  · -- A draw that the narrower limit lets through is let through by the wider one.
    have spent_not : ¬ wide.draws ≤ t.replaced := by omega
    have same : replace small observe pass form name t = replace wide observe pass form name t := by
      simp only [replace, if_neg spent, if_neg spent_not]
    rw [same]
    exact .same _

theorem cutShort_fill {draw draw' : Text → Table σ → Outcome (Table σ) Text}
    (each : ∀ name t, CutShort observe (draw name t) (draw' name t))
    (goes_on : ∀ name t, Performs observe t (draw' name t)) (segments : List Segment)
    (tail : Text) (t : Table σ) :
    CutShort observe (fill draw segments tail t) (fill draw' segments tail t) := by
  induction segments generalizing t with
  | nil => exact .same _
  | cons segment rest ih =>
    apply (each segment.name t).andThen
    · intro t drawn
      exact (ih t).map _
    · intro t drawn
      exact (performs_fill (fun name _ => goes_on name _) rest tail).map _

theorem cutShort_sweep {small wide : Limits} (draws : small.draws ≤ wide.draws) (pass : Pass)
    (form : Form) (text : Text) (t : Table σ) :
    CutShort observe (sweep small observe pass form text t)
      (sweep wide observe pass form text t) :=
  cutShort_fill (cutShort_replace draws pass form)
    (fun name _ => performs_replace wide pass form name) _ _ t

theorem cutShort_runPass {small wide : Limits} (draws : small.draws ≤ wide.draws) (number : Nat)
    (text : Text) (t : Table σ) :
    CutShort observe (runPass small observe number text t)
      (runPass wide observe number text t) :=
  (cutShort_sweep draws _ .keeping text t).andThen
    (fun t swept => cutShort_sweep draws _ .taking swept t)
    fun _ swept => performs_sweep wide _ .taking swept

theorem cutShort_runPasses {small wide : Limits} (draws : small.draws ≤ wide.draws)
    {left more : Nat} (passes : left ≤ more) (number : Nat) (text : Text) (t : Table σ) :
    CutShort observe (runPasses small observe left number text t)
      (runPasses wide observe more number text t) := by
  -- The passes left to the narrower run; the wider one has at least as many at every stage.
  induction left generalizing more number text t with
  | zero =>
    cases references : hasReferences text with
    | false =>
      simp only [runPasses_of_no_references references]
      exact .same _
    | true =>
      rw [runPasses_zero_of_references references]
      exact .stopped _ _ _ (performs_runPasses wide more number text)
  | succ left ih =>
    cases references : hasReferences text with
    | false =>
      simp only [runPasses_of_no_references references]
      exact .same _
    | true =>
      obtain ⟨more, rfl⟩ : ∃ k, more = k + 1 := ⟨more - 1, by omega⟩
      rw [runPasses_of_references references, runPasses_of_references references]
      apply (cutShort_runPass draws number text t).andThen
      · intro t text
        exact ih (by omega) (number + 1) text t
      · intro t text
        exact performs_runPasses wide more (number + 1) text

theorem cutShort_resolve {small wide : Limits} (passes : small.passes ≤ wide.passes)
    (draws : small.draws ≤ wide.draws) (observe : Observer σ) (text : Text) (t : Table σ) :
    CutShort observe (resolve small observe text t) (resolve wide observe text t) :=
  cutShort_runPasses draws passes 1 text _

theorem Performs.consumed {t : Table σ} {o : Outcome (Table σ) Text}
    (performs : Performs observe t o) :
    ∃ more, o.1.consumed = t.consumed ++ more := by
  obtain ⟨rs, heard, draws, -⟩ := performs
  exact ⟨removals rs, draws.accounts.consumed⟩

/-- A resolution that returns does so from the same draws under all wider limits; one that a
limit ends took out of the decks what every wider one takes out first. -/
theorem resolve_of_wider_limits {σ : Type} {small wide : Limits}
    (passes : small.passes ≤ wide.passes) (draws : small.draws ≤ wide.draws) (observe : Observer σ)
    (text : Text) (t : Table σ) :
    (∀ after settled, resolve small observe text t = (after, .ok settled) →
      resolve wide observe text t = (after, .ok settled)) ∧
    ∀ after pass reached limit,
      resolve small observe text t = (after, .error (.unfinished pass reached limit)) →
      ∃ told more, after.consumed = t.consumed ++ told ∧
        (resolve wide observe text t).1.consumed = t.consumed ++ told ++ more := by
  have cut := cutShort_resolve passes draws observe text t
  constructor
  · intro after settled returned
    rw [returned] at cut
    generalize resolve wide observe text t = o at cut
    cases cut with
    | same => rfl
  · intro after pass reached limit ended
    obtain ⟨told, taken⟩ := (performs_resolve small observe text t).consumed
    rw [ended] at cut taken
    generalize resolve wide observe text t = o at cut
    cases cut with
    | same => exact ⟨told, [], taken, by simpa using taken⟩
    | stopped _ _ _ further =>
      obtain ⟨more, grown⟩ := further.consumed
      refine ⟨told, more, taken, ?_⟩
      rw [grown, taken]

def treasury : Table Unit where
  decks := [("gem".toList, ["ruby".toList, "opal".toList]),
    ("ring".toList, ["a \x7bgem\x7d ring".toList])]
  source := .cycle #[]
  host := ()

def order : Text := "\x7b%ring\x7d and \x7bgem\x7d".toList

/-- Three draws in one pass are just enough; with two, the second gem stays where it is. -/
theorem resolve_of_wider_limits_of_treasury :
    (1 ≤ 2 ∧ 3 ≤ 4) ∧
      (resolve ⟨2, 4⟩ .idle order treasury).2 = .ok "a ruby ring and opal".toList ∧
      ∃ more, (resolve ⟨1, 3⟩ .idle order treasury).1.consumed =
        [⟨"gem".toList, "ruby".toList⟩] ++ more := by
  have returned : (resolve ⟨1, 3⟩ .idle order treasury).2 = .ok "a ruby ring and opal".toList := by
    decide +kernel
  have ended : (resolve ⟨1, 2⟩ .idle order treasury).2 = .error (.unfinished 1 order (some 2)) := by
    decide +kernel
  have first : (resolve ⟨1, 2⟩ .idle order treasury).1.consumed =
      [⟨"gem".toList, "ruby".toList⟩] := by
    decide +kernel
  refine ⟨by decide, ?_, ?_⟩
  · rw [(resolve_of_wider_limits (by decide) (by decide) .idle order treasury).1 _ _
      (Prod.ext rfl returned)]
  · have draws : (⟨1, 2⟩ : Limits).draws ≤ (⟨1, 3⟩ : Limits).draws := by decide
    obtain ⟨told, more, so_far, all⟩ :=
      (resolve_of_wider_limits (Nat.le_refl 1) draws .idle order treasury).2 _ _ _ _
        (Prod.ext rfl ended)
    exact ⟨more, by rw [all, ← so_far, first]⟩

end DrawPile.Reference
