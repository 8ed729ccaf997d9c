import DrawPile.Proofs.Audience.Telling
import DrawPile.Proofs.Store.Answer
import DrawPile.Proofs.Store.Step

/-! Delivery. Whatever is asked of a store, its audience changes by subscriptions alone or by
notices alone. So the history of a run, in which each notice is heard before the next is given, has
the same notices and hearings in it as the records of its operations; and it is orderly. -/
namespace DrawPile

/-- One audience came of another by notices alone. -/
def Audience.Told (a b : Audience) : Prop := ∃ ns, b = a.announceAll ns

namespace Audience.Told

theorem refl (a : Audience) : Told a a := ⟨[], rfl⟩

theorem announce (a : Audience) (n : Notice) : Told a (a.announce n).1 := ⟨[n], rfl⟩

theorem trans {a b c : Audience} (first : Told a b) (second : Told b c) : Told a c := by
  obtain ⟨ns, rfl⟩ := first
  obtain ⟨ns', rfl⟩ := second
  exact ⟨ns ++ ns', List.foldl_append.symm⟩

end Audience.Told

/-- The observer of a store tells its audience of each entry taken out. -/
theorem Reference.Draws.told {t t' : Table Audience} {rs : List Substitution}
    {heard : Except Error Unit} (draws : Draws Store.observer t rs t' heard) :
    t.host.Told t'.host := by
  have step {t t' : Table Audience} {r : Substitution} {heard : Except Error Unit}
      (first : Substitutes Store.observer t r t' heard) : t.host.Told t'.host := by
    cases first with
    | missing => exact .refl _
    | kept => exact .refl _
    | taken => exact .announce _ _
  induction draws with
  | done => exact .refl _
  | next first _ ih => exact (step first).trans ih
  | stopped last => exact step last

namespace Store
open Moment

theorem Answers.told {α : Type} {s : Store} {f : Audience → Outcome Store α}
    (answers : Answers s f) :
    s.host.Told (f s.host).1.host := by
  cases answers with
  | quietly t result same kept =>
    rw [same]
    exact .refl s.host
  | aloud t event deck result same =>
    rw [same]
    exact .announce s.host ⟨event, deck⟩

theorem announceDeleted_told (names : List Text) (s : Store) :
    s.host.Told (announceDeleted names s).1.host := by
  refine announceDeleted_keeps (fun t => s.host.Told t.host) ?_ names (.refl s.host)
  intro t name told
  exact told.trans (.announce t.host _)

theorem resolve_told (s : Store) (text : Text) : s.host.Told (s.resolve text).1.host := by
  unfold resolve
  rcases Reference.Limits.ofInts? s.settings.maxDepth s.settings.maxDraws with e | limits
  · exact .refl s.host
  · obtain ⟨rs, heard, draws, -⟩ := Reference.performs_resolve limits observer text s.toTable
    exact draws.told

theorem draw_told (s : Store) (name : Text) : s.host.Told (s.draw name).1.host := by
  unfold draw
  split
  · exact .refl s.host
  · rcases drawEntry (s.entries name) (some name) s.source with ⟨source, e | content⟩
    · exact .refl s.host
    · exact resolve_told { s with source } content

/-- An operation on the decks comes to the audience as notices only. -/
theorem perform_told (s : Store) {op : Operation} (asks : op.listens = false) :
    s.host.Told (s.perform op).1.host := by
  by_cases resolves : op.Resolves
  · rcases resolves with ⟨name, rfl⟩ | ⟨text, rfl⟩
    · simpa only [perform, Outcome.map_fst] using draw_told s name
    · simpa only [perform, Outcome.map_fst] using resolve_told s text
  · by_cases clears : op = .clear
    · subst clears
      simpa only [perform, Outcome.map_fst, clear] using
        announceDeleted_told s.names { s with decks := [] }
    · exact (perform_answers s resolves asks clears).told

def moments (s : Store) (op : Operation) : List Moment :=
  let before := s.freshRecord.host
  let after := (s.step op).1.host
  if op.listens then before.dismissals after ++ before.arrivals after
  else before.announcingAll after.happened

def history (s : Store) : List Operation → List Moment
  | [] => []
  | op :: ops => s.moments op ++ (s.step op).1.history ops

def recorded {β : Type} (s : Store) (record : Audience → List β) : List Operation → List β
  | [] => []
  | op :: ops => record (s.step op).1.host ++ (s.step op).1.recorded record ops

/- A step is a path through the hall, and its record holds what the moments tell. -/
structure Follows (s : Store) (op : Operation) : Prop where
  proper : (s.step op).1.host.Proper
  path : Hall.Path ⟨s.host.subscribed, []⟩ (s.moments op) ⟨(s.step op).1.host.subscribed, []⟩
  given : given (s.moments op) = (s.step op).1.host.happened
  heard : heardByName (s.moments op) = (s.step op).1.host.heard

theorem step_follows {s : Store} (proper : s.host.Proper) (op : Operation) : s.Follows op := by
  have fresh : s.freshRecord.host.Proper := proper.of_same rfl rfl
  cases asks : op.listens with
  | true =>
    cases op with
    | subscribe id habit =>
      constructor
      · exact (fresh.subscribe_cases id habit).1
      · exact Audience.subscribe_path fresh id habit
      · simp [moments, Operation.listens, step, perform, freshRecord]
      · simp [moments, Operation.listens, step, perform, freshRecord]
    | unsubscribe id =>
      constructor
      · exact fresh.unsubscribe id
      · exact Audience.unsubscribe_path fresh id
      · simp [moments, Operation.listens, step, perform, freshRecord]
      · simp [moments, Operation.listens, step, perform, freshRecord, Audience.unsubscribe]
    | _ => cases asks
  | false =>
    obtain ⟨ns, told⟩ := perform_told s.freshRecord asks
    have after : (s.step op).1.host = s.freshRecord.host.announceAll ns := told
    obtain ⟨proper_after, path⟩ := Audience.announceAll_path fresh ns
    obtain ⟨given, happened, heard⟩ := Audience.announceAll_record s.freshRecord.host ns
    have notices : (s.step op).1.host.happened = ns := by rw [after, happened]; rfl
    have all : s.moments op = s.freshRecord.host.announcingAll ns := by
      simp only [moments, asks, notices, Bool.false_eq_true, if_false]
    constructor
    · rw [after]
      exact proper_after
    · rw [all, after]
      exact path
    · rw [all, given, notices]
    · rw [all, after, heard]
      rfl

theorem run_follows {s : Store} (proper : s.host.Proper) (ops : List Operation) :
    Hall.Path ⟨s.host.subscribed, []⟩ (s.history ops) ⟨(s.run ops).host.subscribed, []⟩ ∧
      given (s.history ops) = s.recorded Audience.happened ops ∧
      heardByName (s.history ops) = s.recorded Audience.heard ops := by
  induction ops generalizing s with
  | nil => exact ⟨.rest _, rfl, rfl⟩
  | cons op ops ih =>
    obtain ⟨proper_next, path, given, heard⟩ := step_follows proper op
    obtain ⟨path_rest, given_rest, heard_rest⟩ := ih proper_next
    have next : s.run (op :: ops) = (s.step op).1.run ops := rfl
    rw [next]
    refine ⟨path.append path_rest, ?_, ?_⟩
    · rw [history, recorded, given_append, given, given_rest]
    · rw [history, recorded, heardByName_append, heard, heard_rest]

/-- Only an operation that asks for it dismisses a listener. -/
theorem unsubscribes_of_dismissed {s : Store} {op : Operation} {l : Listener}
    (dismissed : .dismissed l ∈ s.moments op) : ∃ id, op = .unsubscribe id := by
  cases asks : op.listens with
  | true =>
    cases op with
    | subscribe id habit =>
      have none : s.freshRecord.host.dismissals (s.step (.subscribe id habit)).1.host = [] :=
        Audience.dismissals_subscribe s.freshRecord.host id habit
      simp [moments, asks, none, Audience.arrivals] at dismissed
    | unsubscribe id => exact ⟨id, rfl⟩
    | _ => cases asks
  | false =>
    simp only [moments, asks, Bool.false_eq_true, if_false] at dismissed
    exact (Audience.not_dismissed_announcingAll _ _ _ dismissed).elim

/-- The history of a run is orderly, whatever is asked for and whoever listens; it ends with those
who are subscribed, has the notices and hearings of the records in it, and nobody is dismissed in it
but by an operation that asks for that. -/
theorem run_delivers {s : Store} {data : Json} {settings : Settings} {source : Source}
    {warnings : List Warning} (built : ofJson data settings source = (warnings, .ok s))
    (ops : List Operation) :
    Orderly (s.history ops) ∧
      (s.run ops).host.subscribed = roster [] (s.history ops) ∧
      given (s.history ops) = s.recorded Audience.happened ops ∧
      heardByName (s.history ops) = s.recorded Audience.heard ops ∧
      ∀ (t : Store) (op : Operation) (l : Listener), .dismissed l ∈ t.moments op →
        ∃ id, op = .unsubscribe id := by
  have nobody : s.host = {} := ofJson_host built
  have proper : s.host.Proper := nobody ▸ Audience.proper_nobody
  obtain ⟨path, given, heard⟩ := run_follows proper ops
  rw [nobody] at path
  exact ⟨path.orderly rfl, path.present, given, heard, fun t op l => unsubscribes_of_dismissed⟩

/- Two decks are dropped before one who brings in a friend and one who leaves, and a deck is made
before these and one who raises an error. -/
def gathering : List Operation :=
  [.subscribe "host".toList .recruit, .subscribe "shy".toList .leave, .clear,
    .subscribe "grump".toList .refuse, .subscribe "shy".toList .leave, .createDeck none]

theorem run_delivers_of_gathering :
    let host : Listener := ⟨"host".toList, .recruit⟩
    let shy : Listener := ⟨"shy".toList, .leave⟩
    let friend : Listener := ⟨"host+".toList, .stay⟩
    let grump : Listener := ⟨"grump".toList, .refuse⟩
    let first : Notice := ⟨.deleted, "_a".toList⟩
    let second : Notice := ⟨.deleted, "__b".toList⟩
    let last : Notice := ⟨.created, underscored.settings.defaultDeckName⟩
    ofJson underscored.decks.toJson {} (.cycle #[]) = ([], .ok underscored) ∧
      underscored.history gathering =
        [.joined host, .joined shy, .gave first, .heard host first, .joined friend,
          .heard shy first, .gave second, .heard host second, .heard friend second,
          .joined grump, .joined shy, .gave last, .heard host last, .heard friend last,
          .heard grump last] ∧
      Orderly (underscored.history gathering) :=
  ⟨ofJson_underscored, by decide +kernel, (run_delivers ofJson_underscored gathering).1⟩

end Store

end DrawPile
