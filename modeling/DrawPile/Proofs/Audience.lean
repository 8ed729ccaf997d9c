import DrawPile.Audience

/-! What telling listeners does to the audience. An event is recorded once, whoever hears of it,
and it ends in an error exactly when one of those subscribed raises one. -/
namespace DrawPile.Audience
variable {a b : Audience}

@[simp] theorem subscribe_happened (a : Audience) (id : Text) (habit : Habit) :
    (a.subscribe id habit).happened = a.happened := by
  unfold subscribe
  split
  · split <;> rfl
  · rfl

@[simp] theorem unsubscribe_happened (a : Audience) (id : Text) :
    (a.unsubscribe id).happened = a.happened := rfl

@[simp] theorem subscribe_heard (a : Audience) (id : Text) (habit : Habit) :
    (a.subscribe id habit).heard = a.heard := by
  unfold subscribe
  split
  · split <;> rfl
  · rfl

theorem hear_happened (a : Audience) (l : Listener) (n : Notice) :
    (a.hear l n).1.happened = a.happened := by
  unfold hear
  cases l.habit <;> simp

theorem hear_snd (a : Audience) (l : Listener) (n : Notice) :
    (a.hear l n).2 = if l.habit = .refuse then .error (.listener l.id) else .ok () := by
  unfold hear
  cases l.habit <;> rfl

theorem tell_happened (n : Notice) (ls : List Listener) (a : Audience) :
    (tell n ls a).1.happened = a.happened := by
  induction ls generalizing a with
  | nil => rfl
  | cons l ls ih =>
    have heard := hear_happened a l n
    rw [tell]
    rcases told : a.hear l n with ⟨b, e | u⟩ <;> rw [told] at heard
    · exact heard
    · exact (ih b).trans heard

@[simp] theorem announce_happened (a : Audience) (n : Notice) :
    (a.announce n).1.happened = a.happened ++ [n] := tell_happened n _ _

/-- What telling some listeners comes to: the error of the first that raises one. -/
def answer (ls : List Listener) : Except Error Unit :=
  match ls.find? fun l => decide (l.habit = .refuse) with
  | some l => .error (.listener l.id)
  | none => .ok ()

theorem tell_snd (n : Notice) (ls : List Listener) (a : Audience) :
    (tell n ls a).2 = answer ls := by
  induction ls generalizing a with
  | nil => rfl
  | cons l ls ih =>
    have heard := hear_snd a l n
    rw [tell, answer, List.find?_cons]
    rcases told : a.hear l n with ⟨b, result⟩
    rw [told] at heard
    by_cases raises : l.habit = .refuse
    · obtain rfl : result = .error (.listener l.id) := by simpa [raises] using heard
      simp [raises]
    · obtain rfl : result = .ok () := by simpa [raises] using heard
      simpa [raises, answer] using ih b

theorem announce_snd (a : Audience) (n : Notice) : (a.announce n).2 = answer a.subscribed :=
  tell_snd n _ _

theorem answer_eq_ok {ls : List Listener} (calm : ∀ l ∈ ls, l.habit ≠ .refuse) :
    answer ls = .ok () := by
  have none_raises : ls.find? (fun l => decide (l.habit = .refuse)) = none := by
    simpa [List.find?_eq_none] using calm
  rw [answer, none_raises]

/-- Listeners that events reach or may come to reach: those subscribed and whom they bring in. -/
inductive Reaches (a : Audience) : Listener → Prop
  | subscribed {l : Listener} (member : l ∈ a.subscribed) : Reaches a l
  | recruited {l m : Listener} (recruiter : Reaches a l) (recruits : l.habit = .recruit)
      (known : m ∈ a.known) (named : m.id = recruitOf l.id) : Reaches a m

/-- No event can reach a listener that raises an error. -/
def Calm (a : Audience) : Prop := ∀ l, a.Reaches l → l.habit ≠ .refuse

/-- It is enough that no listener that was ever named raises an error. -/
theorem Calm.of_known (subscribed : ∀ l ∈ a.subscribed, l.habit ≠ .refuse)
    (known : ∀ l ∈ a.known, l.habit ≠ .refuse) : a.Calm := by
  intro l reached
  cases reached with
  | subscribed member => exact subscribed l member
  | recruited _ _ member _ => exact known l member

/-- Every listener of `b` is one that `a` reaches, or does nothing when it hears of an event. -/
structure Within (a b : Audience) : Prop where
  subscribed : ∀ l ∈ b.subscribed, a.Reaches l ∨ l.habit = .stay
  known : ∀ l ∈ b.known, l ∈ a.known ∨ l.habit = .stay

namespace Within

theorem refl (a : Audience) : Within a a :=
  ⟨fun _ member => .inl (.subscribed member), fun _ => .inl⟩

theorem calm (within : Within a b) (calm : a.Calm) : ∀ l ∈ b.subscribed, l.habit ≠ .refuse := by
  intro l member
  rcases within.subscribed l member with reached | stays
  · exact calm l reached
  · simp [stays]

theorem reaches {l : Listener} (within : Within a b) (reached : b.Reaches l) :
    a.Reaches l ∨ l.habit = .stay := by
  induction reached with
  | subscribed member => exact within.subscribed _ member
  | recruited _ recruits known named ih =>
    rcases ih with reached | stays
    · rcases within.known _ known with before | stays
      · exact .inl (.recruited reached recruits before named)
      · exact .inr stays
    · rw [stays] at recruits
      cases recruits

theorem subscribe_recruit {l : Listener} (within : Within a b) (reached : a.Reaches l)
    (recruits : l.habit = .recruit) : Within a (b.subscribe (recruitOf l.id) .stay) := by
  unfold subscribe
  split
  · next m found =>
    split
    · exact within
    · have named : m.id = recruitOf l.id := by simpa using List.find?_some found
      refine ⟨fun k member => ?_, within.known⟩
      rcases List.mem_append.1 member with member | member
      · exact within.subscribed k member
      · obtain rfl := List.mem_singleton.1 member
        rcases within.known k (List.mem_of_find?_eq_some found) with known | stays
        · exact .inl (.recruited reached recruits known named)
        · exact .inr stays
  · refine ⟨fun k member => ?_, fun k member => ?_⟩
    · rcases List.mem_append.1 member with member | member
      · exact within.subscribed k member
      · exact .inr (List.mem_singleton.1 member ▸ rfl)
    · rcases List.mem_append.1 member with member | member
      · exact within.known k member
      · exact .inr (List.mem_singleton.1 member ▸ rfl)

theorem hear {l : Listener} (within : Within a b) (reached : a.Reaches l ∨ l.habit = .stay)
    (n : Notice) :
    Within a (b.hear l n).1 := by
  have told : Within a { b with heard := b.heard ++ [(l.id, n)] } :=
    ⟨within.subscribed, within.known⟩
  unfold Audience.hear
  cases habit : l.habit with
  | stay => exact told
  | refuse => exact told
  | leave =>
    exact ⟨fun k member => told.subscribed k (List.mem_filter.1 member).1, told.known⟩
  | recruit =>
    rcases reached with reached | stays
    · exact told.subscribe_recruit reached habit
    · simp [stays] at habit

theorem tell (within : Within a b) {ls : List Listener}
    (reached : ∀ l ∈ ls, a.Reaches l ∨ l.habit = .stay) (n : Notice) :
    Within a (tell n ls b).1 := by
  induction ls generalizing b with
  | nil => exact within
  | cons l ls ih =>
    have next := within.hear (reached l List.mem_cons_self) n
    rw [Audience.tell]
    rcases told : b.hear l n with ⟨c, e | u⟩ <;> rw [told] at next
    · exact next
    · exact ih next fun k member => reached k (List.mem_cons_of_mem l member)

theorem announce (within : Within a b) (n : Notice) : Within a (b.announce n).1 :=
  have recorded : Within a { b with happened := b.happened ++ [n] } :=
    ⟨within.subscribed, within.known⟩
  recorded.tell within.subscribed n

end Within

/-- Where no event can reach one who raises errors, none can after it either. -/
theorem Calm.announce (calm : a.Calm) (n : Notice) :
    (a.announce n).2 = .ok () ∧ (a.announce n).1.Calm := by
  constructor
  · rw [announce_snd, answer_eq_ok fun l member => calm l (.subscribed member)]
  · intro l reached
    rcases ((Within.refl a).announce n).reaches reached with before | stays
    · exact calm l before
    · simp [stays]

/-- No listener that was ever named raises an error. -/
structure Mild (a : Audience) : Prop where
  subscribed : ∀ l ∈ a.subscribed, l.habit ≠ .refuse
  known : ∀ l ∈ a.known, l.habit ≠ .refuse

namespace Mild

theorem of_nobody (subscribed : a.subscribed = []) (known : a.known = []) : a.Mild := by
  constructor
  · simp [subscribed]
  · simp [known]

theorem announce (mild : a.Mild) (n : Notice) :
    (a.announce n).2 = .ok () ∧ (a.announce n).1.Mild := by
  have calm : a.Calm := .of_known mild.subscribed mild.known
  have within := (Within.refl a).announce n
  refine ⟨?_, within.calm calm, ?_⟩
  · rw [announce_snd, answer_eq_ok mild.subscribed]
  · intro l member
    rcases within.known l member with known | stays
    · exact mild.known l known
    · simp [stays]

theorem subscribe (mild : a.Mild) (id : Text) {habit : Habit} (bears : habit ≠ .refuse) :
    (a.subscribe id habit).Mild := by
  have added {ls : List Listener} {m : Listener} (others : ∀ l ∈ ls, l.habit ≠ .refuse)
      (last : m.habit ≠ .refuse) : ∀ l ∈ ls ++ [m], l.habit ≠ .refuse := by
    intro l member
    rcases List.mem_append.1 member with member | member
    · exact others l member
    · rwa [List.mem_singleton.1 member]
  unfold Audience.subscribe
  split
  · next l found =>
    split
    · exact mild
    · exact ⟨added mild.subscribed (mild.known l (List.mem_of_find?_eq_some found)), mild.known⟩
  · exact ⟨added mild.subscribed bears, added mild.known bears⟩

theorem unsubscribe (mild : a.Mild) (id : Text) : (a.unsubscribe id).Mild :=
  ⟨fun l member => mild.subscribed l (List.mem_filter.1 member).1, mild.known⟩

end Mild

end DrawPile.Audience
