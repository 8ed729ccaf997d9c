import DrawPile.Proofs.Store.Announcement
import DrawPile.Proofs.Store.Answer

/-! Failed operations. One that fails for a reason of its own, and not because a listener raised an
error, does so before it touches anything. Only references are replaced one after another: where a
draw or a resolution fails among them, the entries that notice was given of are gone, and no others.
-/
namespace DrawPile

theorem Taken.names {removals : List Removal} {decks after : Decks}
    (taken : Taken removals decks after) : after.names = decks.names := by
  induction taken with
  | nothing => rfl
  | next _ ih => simpa only [Catalog.names_append, Catalog.names_cons] using ih

namespace Store
variable {α : Type} {s : Store}

/- The random source and the warnings may differ: an import warns before it is refused, and a chart
may fail after some rolls. -/
structure Kept (s t : Store) : Prop where
  decks : t.decks = s.decks
  settings : t.settings = s.settings
  host : t.host = s.host

theorem Kept.refl (s : Store) : s.Kept s := ⟨rfl, rfl, rfl⟩

/-- An error is a listener's, or the store is kept. -/
def Refuses (s : Store) (o : Outcome Store α) : Prop :=
  o.Meets (fun _ _ => True) fun t e => (∃ id, e = .listener id) ∨ s.Kept t

namespace Refuses

theorem error {t : Store} {e : Error} (kept : s.Kept t) :
    Refuses s ((t, .error e) : Outcome Store α) :=
  .inr kept

theorem map {β : Type} {o : Outcome Store α} (refuses : Refuses s o) (f : α → β) :
    Refuses s (o.map f) :=
  Outcome.Meets.map refuses fun _ _ _ => trivial

end Refuses

theorem announce_refuses (s t : Store) (event : Event) (deck : Text) (result : α) :
    Refuses s (t.announce event deck result) := by
  have answer := announce_snd t event deck result
  rcases announced : t.announce event deck result with ⟨after, e | value⟩
  · rw [announced, Audience.answer] at answer
    split at answer
    · next l _ =>
      cases answer
      exact .inl ⟨l.id, rfl⟩
    · cases answer
  · trivial

theorem announceDeleted_refuses (s : Store) (names : List Text) (t : Store) :
    Refuses s (announceDeleted names t) := by
  induction names generalizing t with
  | nil => trivial
  | cons name names ih =>
    apply (announce_refuses s t .deleted name ()).andThen
    · intro next _ _
      exact ih next
    · intro _ _ failed
      exact failed

theorem Answers.refuses {f : Audience → Outcome Store α} (answers : Answers s f) :
    Refuses s (f s.host) := by
  cases answers with
  | quietly t result same kept =>
    rw [same]
    cases result with
    | error e =>
      obtain ⟨decks, settings⟩ := kept e rfl
      exact .error ⟨decks, settings, rfl⟩
    | ok value => trivial
  | aloud t event deck result same =>
    rw [same]
    exact announce_refuses ..

theorem perform_refuses {op : Operation} (others : ¬ op.Resolves) : Refuses s (s.perform op) := by
  cases asks : op.listens with
  | true =>
    cases op with
    | subscribe | unsubscribe => trivial
    | _ => cases asks
  | false =>
    by_cases clears : op = .clear
    · subst clears
      exact (announceDeleted_refuses s s.names _).map _
    · exact (perform_answers s others asks clears).refuses

/-- Where no entry is drawn, the references of none are replaced. -/
theorem draw_refused {name : Text} {e : Error}
    (undrawn : (drawEntry (s.entries name) (some name) s.source).2 = .error e) :
    (s.draw name).2 = .error e ∧ s.Kept (s.draw name).1 := by
  unfold draw
  split
  · next missing =>
    rw [missing] at undrawn
    cases undrawn
    exact ⟨rfl, .refl s⟩
  · rcases drawn : drawEntry (s.entries name) (some name) s.source with ⟨source, error | content⟩
    · rw [drawn] at undrawn
      cases undrawn
      exact ⟨rfl, rfl, rfl, rfl⟩
    · rw [drawn] at undrawn
      cases undrawn

/-- Nothing that is stored was changed, and nobody heard of anything. -/
structure Undisturbed (s t : Store) : Prop where
  decks : t.decks = s.decks
  settings : t.settings = s.settings
  subscribed : t.host.subscribed = s.host.subscribed
  happened : t.host.happened = []
  heard : t.host.heard = []

theorem Kept.undisturbed {t : Store} (kept : s.freshRecord.Kept t) : s.Undisturbed t where
  decks := kept.decks
  settings := kept.settings
  subscribed := by rw [kept.host, freshRecord]
  happened := by rw [kept.host, freshRecord]
  heard := by rw [kept.host, freshRecord]

/-- A step that fails, but not through a listener, changes nothing, unless it replaces references.
A draw that fails before it comes to them changes nothing either; otherwise a draw or a resolution
leaves every deck in its place and takes out of them what it gave notice of, however it ends. -/
theorem step_failed (s : Store) (op : Operation) :
    (∀ e, (s.step op).2 = .error e → ¬ op.Resolves → (∀ id, e ≠ .listener id) →
      s.Undisturbed (s.step op).1) ∧
    (∀ name e, op = .draw name →
      (drawEntry (s.entries name) (some name) s.source).2 = .error e →
      (s.step op).2 = .error e ∧ s.Undisturbed (s.step op).1) ∧
    (op.Resolves → (s.step op).1.names = s.names ∧
      (s.step op).1.host.happened = (s.step op).1.consumed.map Removal.notice ∧
      Taken (s.step op).1.consumed s.decks (s.step op).1.decks) := by
  refine ⟨?_, ?_, ?_⟩
  · intro e failed others own
    have refuses := perform_refuses (s := s.freshRecord) others
    rcases performed : s.freshRecord.perform op with ⟨t, error | reply⟩
    · simp only [step, performed] at failed ⊢
      cases failed
      rw [performed] at refuses
      rcases refuses with ⟨id, listens⟩ | kept
      · exact absurd listens (own id)
      · exact kept.undisturbed
    · simp only [step, performed] at failed
      cases failed
  · rintro name e rfl undrawn
    obtain ⟨failed, kept⟩ := draw_refused (s := s.freshRecord) undrawn
    simp only [step, perform, Outcome.map_fst, Outcome.map_snd, failed]
    exact ⟨rfl, kept.undisturbed⟩
  · intro resolves
    obtain ⟨happened, taken⟩ := step_consumes resolves
    exact ⟨taken.names, happened, taken⟩

def meagre : Store := (underscored.step (.assign .maxDraws (.int 1))).1

def twice : Text := "\x7b__b\x7d\x7b__b\x7d".toList

theorem step_failed_of_underscored :
    underscored.Undisturbed (underscored.step (.renameDeck "_a".toList "__b".toList)).1 ∧
      underscored.Undisturbed (underscored.step (.draw "_a".toList)).1 ∧
      (meagre.step (.resolve twice)).2 = .error (.unfinished 1 twice (some 1)) ∧
      Taken [⟨"__b".toList, "x".toList⟩] meagre.decks (meagre.step (.resolve twice)).1.decks := by
  have taken_name : (underscored.step (.renameDeck "_a".toList "__b".toList)).2 =
      .error (.nameConflict "__b".toList
        (Name.conflicts "__b".toList underscored.names (some "_a".toList))) := by
    rfl
  have others : ¬ (Operation.renameDeck "_a".toList "__b".toList).Resolves := by decide
  have empty : (drawEntry (underscored.entries "_a".toList) (some "_a".toList)
      underscored.source).2 = .error (.emptyPopulation [] (some "_a".toList)) := by
    rfl
  have consumed : (meagre.step (.resolve twice)).1.consumed = [⟨"__b".toList, "x".toList⟩] := by
    decide +kernel
  have ended : (meagre.freshRecord.resolve twice).2 = .error (.unfinished 1 twice (some 1)) := by
    decide +kernel
  refine ⟨(step_failed underscored _).1 _ taken_name others fun id => by simp,
    ((step_failed underscored _).2.1 _ _ rfl empty).2, ?_, ?_⟩
  · simp only [step, perform, Outcome.map_snd, ended]
    rfl
  · rw [← consumed]
    exact ((step_failed meagre _).2.2 (.inr ⟨_, rfl⟩)).2.2

end Store

end DrawPile
