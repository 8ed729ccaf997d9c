import DrawPile.Outcome

/-! Listeners and what they are told. An event goes to all who are subscribed when it happens, in
the order in which they subscribed, until one of them raises an error. -/
namespace DrawPile

inductive Event
  | created
  | updated
  | renamed
  | deleted
  | consumed
  | reordered
  | replaced
  deriving DecidableEq, Repr

/-- What a listener does after it has heard an event: nothing, unsubscribe itself, subscribe a
listener that stays under its own name with a plus, or raise an error. -/
inductive Habit
  | stay
  | leave
  | recruit
  | refuse
  deriving DecidableEq, Repr

structure Listener where
  id : Text
  habit : Habit
  deriving DecidableEq, Repr

structure Notice where
  event : Event
  deck : Text
  deriving DecidableEq, Repr

/-- All listeners that were ever named, those that are subscribed, the notices given, and
which listener heard which. -/
structure Audience where
  known : List Listener := []
  subscribed : List Listener := []
  happened : List Notice := []
  heard : List (Text × Notice) := []
  deriving DecidableEq, Repr

namespace Audience

def recruitOf (id : Text) : Text := id ++ ['+']

/-- Subscribes a listener by name; the habit counts when the name is new. -/
def subscribe (a : Audience) (id : Text) (habit : Habit) : Audience :=
  match a.known.find? fun l => l.id == id with
  | some l => if l ∈ a.subscribed then a else { a with subscribed := a.subscribed ++ [l] }
  | none =>
    { a with
      known := a.known ++ [⟨id, habit⟩]
      subscribed := a.subscribed ++ [⟨id, habit⟩] }

def unsubscribe (a : Audience) (id : Text) : Audience :=
  { a with subscribed := a.subscribed.filter fun l => decide (l.id ≠ id) }

def hear (a : Audience) (l : Listener) (n : Notice) : Outcome Audience Unit :=
  let a := { a with heard := a.heard ++ [(l.id, n)] }
  match l.habit with
  | .stay => (a, .ok ())
  | .leave => (a.unsubscribe l.id, .ok ())
  | .recruit => (a.subscribe (recruitOf l.id) .stay, .ok ())
  | .refuse => (a, .error (.listener l.id))

def tell (n : Notice) : List Listener → Audience → Outcome Audience Unit
  | [], a => (a, .ok ())
  | l :: rest, a => (a.hear l n).andThen fun a _ => tell n rest a

def announce (a : Audience) (n : Notice) : Outcome Audience Unit :=
  tell n a.subscribed { a with happened := a.happened ++ [n] }

end Audience

end DrawPile
