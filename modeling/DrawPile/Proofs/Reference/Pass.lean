import DrawPile.Proofs.Outcome
import DrawPile.Proofs.Reference.Substitution
import DrawPile.Proofs.Reference.Token

/-! A pass, token by token. In a sweep what stands before a token is kept, what is drawn takes its
place, and the sweep goes on behind it. -/
namespace DrawPile.Reference
variable {σ : Type} {observe : Observer σ} {t : Table σ}

theorem sweep_of_none {limits : Limits} {pass : Pass} {form : Form} {text : Text}
    (missing : split? form text = none) :
    sweep limits observe pass form text t = (t, .ok text) := by
  simp [sweep, segments_of_none missing, fill]

theorem sweep_of_some {limits : Limits} {pass : Pass} {form : Form} {text : Text} {s : Split}
    (found : split? form text = some s) :
    sweep limits observe pass form text t =
      (replace limits observe pass form s.name t).andThen fun t drawn =>
        (sweep limits observe pass form s.after t).map fun filled => s.before ++ drawn ++ filled := by
  simp [sweep, segments_of_some found, fill]

/- The draws are used up. -/
def Refused (limits : Limits) (pass : Pass) (t : Table σ) (e : Error) : Prop :=
  limits.draws ≤ t.replaced ∧ e = .unfinished pass.number pass.start (some limits.draws)

theorem Substitutes.answer {r : Substitution} {after : Table σ} {e : Error}
    (step : Substitutes observe t r after (.error e)) :
    ∃ removal host, (observe removal host).2 = .error e := by
  generalize heard : Except.error e = answer at step
  cases step with
  | missing | kept => cases heard
  | taken => exact ⟨_, _, rfl⟩

theorem Draws.heard_idle {after : Table σ} {rs : List Substitution} {heard : Except Error Unit}
    (run : Draws .idle t rs after heard) : heard = .ok () := by
  induction run with
  | done => rfl
  | next _ _ ih => exact ih
  | stopped last =>
    obtain ⟨_, _, answer⟩ := last.answer
    cases answer

theorem replace_meets (limits : Limits) (observe : Observer σ) (pass : Pass) (form : Form)
    (name : Text) (t : Table σ) :
    (replace limits observe pass form name t).Meets
      (fun t' drawn => ∃ r, r.form = form ∧ r.name = name ∧ r.text = drawn ∧
        Substitutes observe t r t' (.ok ()))
      fun t' e => t' = t ∧ Refused limits pass t e ∨
        ∃ r, r.form = form ∧ r.name = name ∧ Substitutes observe t r t' (.error e) := by
  by_cases spent : limits.draws ≤ t.replaced
  · rw [replace_of_spent spent]
    exact .inl ⟨rfl, spent, rfl⟩
  · obtain ⟨r, after, heard, same_form, same_name, step, result⟩ :=
      replace_of_left spent observe pass form name
    rw [result]
    cases heard with
    | ok u => exact ⟨r, same_form, same_name, rfl, step⟩
    | error e => exact .inr ⟨r, same_form, same_name, step⟩

theorem runPasses_of_no_references {limits : Limits} {text : Text}
    (finished : hasReferences text = false) (left number : Nat) :
    runPasses limits observe left number text t = (t, .ok text) := by
  cases left <;> simp [runPasses, finished]

theorem runPasses_of_references {limits : Limits} {text : Text}
    (references : hasReferences text = true) (left number : Nat) :
    runPasses limits observe (left + 1) number text t =
      (runPass limits observe number text t).andThen fun t expanded =>
        runPasses limits observe left (number + 1) expanded t := by
  simp only [runPasses, references, if_true]

theorem runPasses_zero_of_references {limits : Limits} {text : Text}
    (references : hasReferences text = true) (number : Nat) :
    runPasses limits observe 0 number text t =
      (t, .error (.unfinished limits.passes text none)) := by
  simp only [runPasses, references, if_true]

end DrawPile.Reference
