import DrawPile.Proofs.Audience
import DrawPile.Proofs.Reference.Agreement
import DrawPile.Proofs.Store.Failure

/-! Listeners look on. Whoever listens, as long as nobody raises an error, a store answers and
changes as it would before no audience at all. An audience that raises errors can spoil answers, and
can stop a resolution, but no other operation leaves other decks because of it. -/
namespace DrawPile.Store
variable {α : Type} {s : Store}

/- Of the first outcome and of the same before another audience: at most the audience differs, and
where no listener raises errors, all else that can be seen is the same. -/
structure Parallel (mild : Prop) (o o' : Outcome Store α) : Prop where
  state : ∃ a, o'.1 = o.1.before a
  result : mild → o.2 = o'.2
  audiences : mild → o.1.host.Mild ∧ o'.1.host.Mild

def BothMild (s : Store) (a : Audience) : Prop := s.host.Mild ∧ a.Mild

namespace Parallel

theorem of_result (s : Store) (a : Audience) (result : Except Error α) :
    Parallel (s.BothMild a) (s, result) (s.before a, result) :=
  ⟨⟨a, rfl⟩, fun _ => rfl, fun mild => mild⟩

theorem map {β : Type} {mild : Prop} {o o' : Outcome Store α} (f : α → β)
    (parallel : Parallel mild o o') :
    Parallel mild (o.map f) (o'.map f) := by
  constructor
  · simpa only [Outcome.map_fst] using parallel.state
  · intro quiet
    rw [Outcome.map_snd, Outcome.map_snd, parallel.result quiet]
  · simpa only [Outcome.map_fst] using parallel.audiences

end Parallel

theorem announce_ok (mild : s.host.Mild) (event : Event) (deck : Text) (result : α) :
    (s.announce event deck result).2 = .ok result ∧ (s.announce event deck result).1.host.Mild := by
  rw [announce_snd, Audience.answer_eq_ok mild.subscribed]
  exact ⟨rfl, (mild.announce ⟨event, deck⟩).2⟩

theorem announce_parallel (s : Store) (a : Audience) (event : Event) (deck : Text) (result : α) :
    Parallel (s.BothMild a) (s.announce event deck result)
      ((s.before a).announce event deck result) := by
  refine ⟨⟨_, rfl⟩, ?_, ?_⟩
  · rintro ⟨mild, mild'⟩
    have told := announce_ok mild event deck result
    have told' := announce_ok (s := s.before a) mild' event deck result
    rw [told.1, told'.1]
  · rintro ⟨mild, mild'⟩
    have told := announce_ok mild event deck result
    have told' := announce_ok (s := s.before a) mild' event deck result
    exact ⟨told.2, told'.2⟩

theorem Answers.parallel {f : Audience → Outcome Store α} (answers : Answers s f) (a : Audience) :
    Parallel (s.BothMild a) (f s.host) (f a) := by
  cases answers with
  | quietly t result same kept =>
    rw [same, same]
    exact .of_result (t.before s.host) a result
  | aloud t event deck result same =>
    rw [same, same]
    exact announce_parallel (t.before s.host) a event deck result

theorem announceDeleted_before (names : List Text) (s : Store) :
    ∃ a, (announceDeleted names s).1 = s.before a := by
  refine announceDeleted_keeps (fun t => ∃ a, t = s.before a) ?_ names ⟨s.host, rfl⟩
  rintro _ name ⟨a, rfl⟩
  exact ⟨(a.announce ⟨.deleted, name⟩).1, rfl⟩

theorem announceDeleted_ok (names : List Text) (mild : s.host.Mild) :
    (announceDeleted names s).2 = .ok () ∧ (announceDeleted names s).1.host.Mild := by
  induction names generalizing s with
  | nil => exact ⟨rfl, mild⟩
  | cons name names ih =>
    rw [announceDeleted]
    obtain ⟨heard, next_mild⟩ := announce_ok mild .deleted name ()
    rcases told : s.announce .deleted name () with ⟨next, result⟩
    rw [told] at heard next_mild
    cases heard
    exact ih next_mild

theorem clear_parallel {a : Audience} : Parallel (s.BothMild a) s.clear (s.before a).clear := by
  obtain ⟨b, left⟩ := announceDeleted_before s.names { s with decks := [] }
  obtain ⟨b', right⟩ := announceDeleted_before s.names { s.before a with decks := [] }
  have mild_ok (mild : s.host.Mild) := announceDeleted_ok (s := { s with decks := [] }) s.names mild
  have mild_ok' (mild : a.Mild) :=
    announceDeleted_ok (s := { s.before a with decks := [] }) s.names mild
  refine ⟨⟨b', ?_⟩, ?_, ?_⟩
  · exact right.trans (congrArg (before · b') left).symm
  · rintro ⟨mild, mild'⟩
    exact (mild_ok mild).1.trans (mild_ok' mild').1.symm
  · rintro ⟨mild, mild'⟩
    exact ⟨(mild_ok mild).2, (mild_ok' mild').2⟩

theorem perform_parallel {a : Audience} {op : Operation} (others : ¬ op.Resolves)
    (asks : op.listens = false) :
    Parallel (s.BothMild a) (s.perform op) ((s.before a).perform op) := by
  by_cases clears : op = .clear
  · subst clears
    exact clear_parallel.map _
  · exact (perform_answers s others asks clears).parallel a

/- Tables before audiences that raise no errors, and else the same. -/
def AlikeTables (t t' : Table Audience) : Prop :=
  t.host.Mild ∧ t'.host.Mild ∧ ∃ a, t' = { t with host := a }

/-- Stores before audiences that raise no errors, and else the same. -/
def Alike (s t : Store) : Prop := s.host.Mild ∧ t.host.Mild ∧ ∃ a, t = s.before a

/-- A removal is heard without an error, and then the draw goes on alike. -/
theorem observer_lockstep : Reference.Lockstep observer observer AlikeTables where
  counted := by
    rintro t _ ⟨-, -, a, rfl⟩
    rfl
  recounted := by
    rintro t _ count ⟨mild, mild', a, rfl⟩
    exact ⟨mild, mild', a, rfl⟩
  drawn := by
    rintro t _ form name ⟨mild, mild', a, rfl⟩
    have same : Table.entries { t with host := a } name = t.entries name := rfl
    unfold Table.drawFrom
    rw [same]
    cases t.entries name with
    | nil => exact ⟨rfl, mild, mild', a, rfl⟩
    | cons first rest =>
      simp only [Source.pick_snd]
      cases form with
      | keeping =>
        simp only
        exact ⟨rfl, mild, mild', a, rfl⟩
      | taking =>
        simp only [Table.take]
        obtain ⟨heard, after⟩ := mild.announce ⟨.consumed, name⟩
        obtain ⟨heard', after'⟩ := mild'.announce ⟨.consumed, name⟩
        apply Outcome.Agree.map
        exact ⟨heard.trans heard'.symm, after, after', _, rfl⟩

theorem resolve_alike {t : Store} (alike : s.Alike t) (text : Text) :
    Outcome.Agree Alike (s.resolve text) (t.resolve text) := by
  obtain ⟨mild, mild', a, rfl⟩ := alike
  unfold resolve
  simp only [before]
  rcases Reference.Limits.ofInts? s.settings.maxDepth s.settings.maxDraws with e | limits
  · exact ⟨rfl, mild, mild', a, rfl⟩
  · have tables : AlikeTables s.toTable { s.toTable with host := a } := ⟨mild, mild', a, rfl⟩
    obtain ⟨result, quiet, quiet', b, after⟩ :=
      Reference.resolve_agree observer_lockstep limits text tables
    refine ⟨result, quiet, quiet', b, ?_⟩
    simp only [Outcome.of_ok, Outcome.andThen_ok, after]
    rfl

theorem draw_alike {t : Store} (alike : s.Alike t) (name : Text) :
    Outcome.Agree Alike (s.draw name) (t.draw name) := by
  obtain ⟨mild, mild', a, rfl⟩ := alike
  have same : (s.before a).entries name = s.entries name := rfl
  unfold draw
  rw [same]
  split
  · exact ⟨rfl, mild, mild', a, rfl⟩
  · simp only [before]
    rcases drawEntry (s.entries name) (some name) s.source with ⟨source, e | content⟩
    · exact ⟨rfl, mild, mild', a, rfl⟩
    · have alike : Alike { s with source } { s.before a with source } := ⟨mild, mild', a, rfl⟩
      exact resolve_alike alike content

/-- Before audiences that raise no errors, an operation on the decks answers alike. -/
theorem perform_alike {t : Store} (alike : s.Alike t) {op : Operation}
    (asks : op.listens = false) : Outcome.Agree Alike (s.perform op) (t.perform op) := by
  by_cases resolves : op.Resolves
  · rcases resolves with ⟨name, rfl⟩ | ⟨text, rfl⟩
    · exact (draw_alike alike name).map
    · exact (resolve_alike alike text).map
  · obtain ⟨mild, mild', a, rfl⟩ := alike
    obtain ⟨state, result, audiences⟩ := perform_parallel (s := s) (a := a) resolves asks
    obtain ⟨quiet, quiet'⟩ := audiences ⟨mild, mild'⟩
    exact ⟨result ⟨mild, mild'⟩, quiet, quiet', state⟩

/- What can be seen of one operation on the decks: its answer, and the decks, the warnings and the
calls of the source after it. -/
structure Observation where
  result : Except Error Reply
  decks : Decks
  warnings : List Warning
  calls : Nat

def Observation.of (o : Outcome Store Reply) : Observation :=
  ⟨o.2, o.1.decks, o.1.warnings, o.1.source.calls⟩

/-- What is seen of a run, operation after operation, but for those about the audience. -/
def observations (s : Store) : List Operation → List Observation
  | [] => []
  | op :: ops =>
    if op.listens then observations (s.step op).1 ops
    else .of (s.step op) :: observations (s.step op).1 ops

theorem Alike.observation {o o' : Outcome Store Reply} (agree : Outcome.Agree Alike o o') :
    Observation.of o = Observation.of o' := by
  obtain ⟨result, -, -, a, state⟩ := agree
  simp only [Observation.of, result, state, before]

theorem Alike.freshRecord {t : Store} (alike : s.Alike t) : s.freshRecord.Alike t.freshRecord := by
  obtain ⟨mild, mild', a, rfl⟩ := alike
  exact ⟨⟨mild.subscribed, mild.known⟩, ⟨mild'.subscribed, mild'.known⟩, _, rfl⟩

/-- A step about the audience is not seen after it, as long as the listener raises no errors. -/
theorem step_listening {t : Store} (alike : s.freshRecord.Alike t.freshRecord) {op : Operation}
    (asks : op.listens = true) (bears : ∀ id, op ≠ .subscribe id .refuse) :
    (s.step op).1.freshRecord.Alike t.freshRecord := by
  obtain ⟨mild, mild', a, same⟩ := alike
  rw [same] at mild' ⊢
  cases op with
  | subscribe id habit =>
    have quiet := mild.subscribe id fun refuses => bears id (refuses ▸ rfl)
    exact ⟨⟨quiet.subscribed, quiet.known⟩, mild', a, rfl⟩
  | unsubscribe id =>
    have quiet := mild.unsubscribe id
    exact ⟨⟨quiet.subscribed, quiet.known⟩, mild', a, rfl⟩
  | _ => cases asks

theorem observations_alike {t : Store} (alike : s.freshRecord.Alike t.freshRecord)
    (ops : List Operation) (bears : ∀ id, Operation.subscribe id .refuse ∉ ops) :
    s.observations ops = t.observations (ops.filter fun op => !op.listens) := by
  -- The records of the last step are of no account: each step begins with new ones.
  induction ops generalizing s t with
  | nil => rfl
  | cons op ops ih =>
    have bears_rest : ∀ id, Operation.subscribe id .refuse ∉ ops := by
      intro id member
      exact bears id (List.mem_cons_of_mem op member)
    cases asks : op.listens with
    | true =>
      have next := step_listening alike asks fun id same => bears id (same ▸ List.mem_cons_self)
      simp only [observations, asks, List.filter_cons, if_true, Bool.not_true]
      exact ih next bears_rest
    | false =>
      have agree : Outcome.Agree Alike (s.step op) (t.step op) := perform_alike alike asks
      have next := ih agree.2.freshRecord bears_rest
      have seen := Alike.observation agree
      simp only [observations, asks, List.filter_cons, Bool.not_false, if_true,
        Bool.false_eq_true, if_false, seen, next]

theorem step_decks_before (s : Store) {op : Operation} (others : ¬ op.Resolves) (a : Audience) :
    ((s.before a).step op).1.decks = (s.step op).1.decks := by
  cases asks : op.listens with
  | true =>
    cases op with
    | subscribe id habit => rfl
    | unsubscribe id => rfl
    | _ => cases asks
  | false =>
    have parallel := perform_parallel (s := s.freshRecord)
      (a := { a with happened := [], heard := [] }) others asks
    obtain ⟨b, state⟩ := parallel.state
    have decks := congrArg (fun t : Store => t.decks) state
    exact decks

/-- A run before listeners that raise no errors is the run without them: it has the same answers,
and the same decks, warnings and calls of the source after each operation. Before listeners that do
raise errors, one operation leaves the decks that it leaves before none, references apart. -/
theorem run_same_without_listeners :
    (∀ {data settings source warnings s}, ofJson data settings source = (warnings, .ok s) →
      ∀ ops, (∀ id, Operation.subscribe id .refuse ∉ ops) →
        s.observations ops = s.observations (ops.filter fun op => !op.listens)) ∧
    (∀ (s : Store) (op : Operation), ¬ op.Resolves →
      ((s.before {}).step op).1.decks = (s.step op).1.decks) := by
  constructor
  · intro data settings source warnings s built ops bears
    have alone : s.freshRecord.Alike s.freshRecord := by
      have nobody : s.host = {} := ofJson_host built
      have mild : s.freshRecord.host.Mild := by
        apply Audience.Mild.of_nobody
        · rw [freshRecord, nobody]
        · rw [freshRecord, nobody]
      exact ⟨mild, mild, s.freshRecord.host, rfl⟩
    exact observations_alike alone ops bears
  · intro s op others
    exact step_decks_before s others {}

def visit : List Operation :=
  [.subscribe "host".toList .recruit, .createDeck none, .unsubscribe "host".toList,
    .resolve "\x7b__b\x7d".toList]

def grumbling : Store := (underscored.step (.subscribe "grump".toList .refuse)).1

theorem run_same_without_listeners_of_visit :
    (∀ id, Operation.subscribe id .refuse ∉ visit) ∧
      underscored.observations visit =
        underscored.observations [.createDeck none, .resolve "\x7b__b\x7d".toList] ∧
      (grumbling.step .clear).2.isOk = false ∧ (grumbling.step .clear).1.decks = [] := by
  have bears : ∀ id, Operation.subscribe id .refuse ∉ visit := by
    intro id
    simp [visit]
  have others : ¬ Operation.clear.Resolves := by decide
  refine ⟨bears, run_same_without_listeners.1 ofJson_underscored visit bears, by decide, ?_⟩
  rw [← run_same_without_listeners.2 grumbling .clear others]
  rfl

end DrawPile.Store
