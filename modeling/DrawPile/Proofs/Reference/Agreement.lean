import DrawPile.Proofs.Outcome
import DrawPile.Reference.Resolution

/-! Two resolutions side by side. Where each draw from two related tables comes to the same text and
leaves them related, so does the whole resolution: it touches the tables in no other way. -/
namespace DrawPile.Reference
variable {σ τ : Type} {related : Table σ → Table τ → Prop}

/- The count is compared with the limit before each draw, so the tables must have it in common. -/
structure Lockstep (observe : Observer σ) (observe' : Observer τ)
    (related : Table σ → Table τ → Prop) : Prop where
  counted : ∀ {t t'}, related t t' → t.replaced = t'.replaced
  recounted : ∀ {t t'} (count : Nat), related t t' →
    related { t with replaced := count } { t' with replaced := count }
  drawn : ∀ {t t'} (form : Form) (name : Text), related t t' →
    Outcome.Agree related (t.drawFrom observe form name) (t'.drawFrom observe' form name)

theorem replace_agree {observe : Observer σ} {observe' : Observer τ}
    (steps : Lockstep observe observe' related) (limits : Limits) (pass : Pass) (form : Form)
    (name : Text) {t : Table σ} {t' : Table τ} (states : related t t') :
    Outcome.Agree related (replace limits observe pass form name t)
      (replace limits observe' pass form name t') := by
  have count := steps.counted states
  unfold replace
  rw [← count]
  split
  · exact ⟨rfl, states⟩
  · exact steps.drawn form name (steps.recounted _ states)

theorem fill_agree {draw : Text → Table σ → Outcome (Table σ) Text}
    {draw' : Text → Table τ → Outcome (Table τ) Text}
    (each : ∀ name {t t'}, related t t' → Outcome.Agree related (draw name t) (draw' name t'))
    (segments : List Segment) (tail : Text) {t : Table σ} {t' : Table τ}
    (states : related t t') :
    Outcome.Agree related (fill draw segments tail t) (fill draw' segments tail t') := by
  induction segments generalizing t t' with
  | nil => exact ⟨rfl, states⟩
  | cons segment rest ih =>
    apply (each segment.name states).andThen
    intro t t' drawn states
    exact (ih states).map

theorem sweep_agree {observe : Observer σ} {observe' : Observer τ}
    (steps : Lockstep observe observe' related) (limits : Limits) (pass : Pass) (form : Form)
    (text : Text) {t : Table σ} {t' : Table τ} (states : related t t') :
    Outcome.Agree related (sweep limits observe pass form text t)
      (sweep limits observe' pass form text t') :=
  fill_agree (fun name _ _ states => replace_agree steps limits pass form name states) _ _ states

theorem runPass_agree {observe : Observer σ} {observe' : Observer τ}
    (steps : Lockstep observe observe' related) (limits : Limits) (number : Nat) (text : Text)
    {t : Table σ} {t' : Table τ} (states : related t t') :
    Outcome.Agree related (runPass limits observe number text t)
      (runPass limits observe' number text t') := by
  apply (sweep_agree steps limits _ .keeping text states).andThen
  intro t t' swept states
  exact sweep_agree steps limits _ .taking swept states

theorem runPasses_agree {observe : Observer σ} {observe' : Observer τ}
    (steps : Lockstep observe observe' related) (limits : Limits) (left number : Nat) (text : Text)
    {t : Table σ} {t' : Table τ} (states : related t t') :
    Outcome.Agree related (runPasses limits observe left number text t)
      (runPasses limits observe' left number text t') := by
  induction left generalizing number text t t' with
  | zero =>
    unfold runPasses
    split
    · exact ⟨rfl, states⟩
    · exact ⟨rfl, states⟩
  | succ left ih =>
    unfold runPasses
    split
    · apply (runPass_agree steps limits number text states).andThen
      intro t t' text states
      exact ih (number + 1) text states
    · exact ⟨rfl, states⟩

theorem resolve_agree {observe : Observer σ} {observe' : Observer τ}
    (steps : Lockstep observe observe' related) (limits : Limits) (text : Text) {t : Table σ}
    {t' : Table τ} (states : related t t') :
    Outcome.Agree related (resolve limits observe text t) (resolve limits observe' text t') :=
  runPasses_agree steps limits limits.passes 1 text (steps.recounted 0 states)

end DrawPile.Reference
