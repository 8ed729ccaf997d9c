import DrawPile.Error

/-! What comes of an operation that changes a state and may fail: the state it leaves behind, and
its result or its error. Whatever was changed before a failure stays changed. -/
namespace DrawPile

instance resultDecidableEq {ε α : Type} [DecidableEq ε] [DecidableEq α] :
    DecidableEq (Except ε α)
  | .ok a, .ok b => decidable_of_iff (a = b) ⟨congrArg _, Except.ok.inj⟩
  | .error e, .error f => decidable_of_iff (e = f) ⟨congrArg _, Except.error.inj⟩
  | .ok _, .error _ => isFalse nofun
  | .error _, .ok _ => isFalse nofun

abbrev Outcome (σ α : Type) := σ × Except Error α

namespace Outcome
variable {σ α β : Type}

def of (s : σ) (x : Except Error α) : Outcome σ α := (s, x)

/-- Goes on from the state and the result; an error ends the matter. -/
@[inline] def andThen (o : Outcome σ α) (f : σ → α → Outcome σ β) : Outcome σ β :=
  match o with
  | (s, .error e) => (s, .error e)
  | (s, .ok a) => f s a

@[inline] def map (f : α → β) (o : Outcome σ α) : Outcome σ β :=
  o.andThen fun s a => (s, .ok (f a))

@[simp] theorem andThen_error (s : σ) (e : Error) (f : σ → α → Outcome σ β) :
    andThen (s, .error e) f = (s, .error e) := rfl

@[simp] theorem andThen_ok (s : σ) (a : α) (f : σ → α → Outcome σ β) :
    andThen (s, .ok a) f = f s a := rfl

@[simp] theorem map_error (s : σ) (e : Error) (f : α → β) :
    map f (s, .error e) = (s, .error e) := rfl

@[simp] theorem map_ok (s : σ) (a : α) (f : α → β) : map f (s, .ok a) = (s, .ok (f a)) := rfl

@[simp] theorem of_error (s : σ) (e : Error) : (of s (.error e) : Outcome σ α) = (s, .error e) :=
  rfl

@[simp] theorem of_ok (s : σ) (a : α) : of s (.ok a) = (s, .ok a) := rfl

@[simp] theorem map_fst (f : α → β) (o : Outcome σ α) : (o.map f).1 = o.1 := by
  obtain ⟨s, e | a⟩ := o <;> rfl

theorem map_snd (f : α → β) (o : Outcome σ α) : (o.map f).2 = o.2.map f := by
  obtain ⟨s, e | a⟩ := o <;> rfl

end Outcome

end DrawPile
