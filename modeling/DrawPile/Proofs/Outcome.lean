import DrawPile.Outcome

/-! What is known of an outcome: one thing of the state and the result where it returns, another
of the state and the error where it fails. Of two outcomes it may be known that they agree. -/
namespace DrawPile.Outcome
variable {σ α β : Type} {o : Outcome σ α}

def Meets (returns : σ → α → Prop) (fails : σ → Error → Prop) (o : Outcome σ α) : Prop :=
  match o with
  | (s, .ok a) => returns s a
  | (s, .error e) => fails s e

namespace Meets

theorem imp {returns goal : σ → α → Prop} {fails bad : σ → Error → Prop}
    (known : o.Meets returns fails) (result : ∀ s a, returns s a → goal s a)
    (error : ∀ s e, fails s e → bad s e) : o.Meets goal bad := by
  rcases o with ⟨s, e | a⟩
  · exact error s e known
  · exact result s a known

theorem returned {returns : σ → α → Prop} {fails : σ → Error → Prop} {a : α}
    (known : o.Meets returns fails) (result : o.2 = .ok a) : returns o.1 a := by
  obtain ⟨s, x⟩ := o
  cases result
  exact known

theorem failed {returns : σ → α → Prop} {fails : σ → Error → Prop} {e : Error}
    (known : o.Meets returns fails) (result : o.2 = .error e) :
    fails o.1 e := by
  obtain ⟨s, x⟩ := o
  cases result
  exact known

theorem andThen {returns : σ → α → Prop} {fails bad : σ → Error → Prop} {goal : σ → β → Prop}
    {f : σ → α → Outcome σ β} (known : o.Meets returns fails)
    (next : ∀ s a, returns s a → (f s a).Meets goal bad) (error : ∀ s e, fails s e → bad s e) :
    (o.andThen f).Meets goal bad := by
  rcases o with ⟨s, e | a⟩
  · exact error s e known
  · exact next s a known

theorem map {returns : σ → α → Prop} {fails : σ → Error → Prop} {goal : σ → β → Prop} {f : α → β}
    (known : o.Meets returns fails) (result : ∀ s a, returns s a → goal s (f a)) :
    (o.map f).Meets goal fails :=
  known.andThen result fun _ _ failed => failed

theorem map_known {fails : σ → Error → Prop} {kept : σ → Prop} {f : α → β}
    (known : o.Meets (fun s _ => kept s) fails) :
    (o.map f).Meets (fun s _ => kept s) fails :=
  known.map fun _ _ holds => holds

/-- Where an outcome that returns shows a condition and one that fails denies it, it returns under
that condition and no other. -/
theorem returns_iff {condition : Prop} {value : α → Prop}
    (known : o.Meets (fun _ a => condition ∧ value a) fun _ _ => ¬ condition) :
    (∃ s a, o = (s, .ok a) ∧ value a) ↔ condition := by
  rcases o with ⟨s, e | a⟩
  · constructor
    · rintro ⟨_, _, returned, -⟩
      cases returned
    · intro holds
      exact absurd holds known
  · constructor
    · intro _
      exact known.1
    · intro _
      exact ⟨s, a, rfl, known.2⟩

end Meets

/-- Wherever it fails, it is with an error of a kind. -/
def FailsOnly (kind : Error → Prop) (o : Outcome σ α) : Prop :=
  o.Meets (fun _ _ => True) fun _ e => kind e

namespace FailsOnly

theorem andThen {kind : Error → Prop} {f : σ → α → Outcome σ β} (first : o.FailsOnly kind)
    (next : ∀ s a, (f s a).FailsOnly kind) : (o.andThen f).FailsOnly kind :=
  Meets.andThen first (fun s a _ => next s a) fun _ _ known => known

theorem map {kind : Error → Prop} {f : α → β} (first : o.FailsOnly kind) :
    (o.map f).FailsOnly kind :=
  first.andThen fun _ _ => trivial

end FailsOnly

/-- The same result or the same error, in related states. -/
def Agree {τ : Type} (related : σ → τ → Prop) (o : Outcome σ α) (o' : Outcome τ α) : Prop :=
  o.2 = o'.2 ∧ related o.1 o'.1

namespace Agree

theorem andThen {τ : Type} {related : σ → τ → Prop} {o' : Outcome τ α} {f : σ → α → Outcome σ β}
    {f' : τ → α → Outcome τ β} (first : Agree related o o')
    (next : ∀ s t a, related s t → Agree related (f s a) (f' t a)) :
    Agree related (o.andThen f) (o'.andThen f') := by
  rcases o with ⟨s, result⟩
  rcases o' with ⟨t, result'⟩
  obtain ⟨same, states⟩ := first
  cases same
  cases result with
  | error e => exact ⟨rfl, states⟩
  | ok a => exact next s t a states

theorem map {τ : Type} {related : σ → τ → Prop} {o' : Outcome τ α} {f : α → β}
    (agree : Agree related o o') : Agree related (o.map f) (o'.map f) :=
  agree.andThen fun _ _ _ states => ⟨rfl, states⟩

end Agree

end DrawPile.Outcome
