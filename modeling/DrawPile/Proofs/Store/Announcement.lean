import DrawPile.Proofs.Store.Step

/-! No operation changes the decks in silence. What a step does to them is what its notices tell,
one after another. Only a clearing can be cut short by a listener that raises an error, so only
there must no event come to such a listener. -/
namespace DrawPile

theorem Changes.eq_of_nil {decks after : Decks} (changes : Changes [] decks after) :
    after = decks := by
  cases changes
  rfl

theorem Audience.Calm.of_record {a b : Audience} (calm : a.Calm)
    (subscribed : b.subscribed = a.subscribed) (known : b.known = a.known) : b.Calm := by
  intro l reached
  have same : a.Reaches l := by
    induction reached with
    | subscribed member => exact .subscribed (subscribed ▸ member)
    | recruited _ recruits member named ih => exact .recruited ih recruits (known ▸ member) named
  exact calm l same

namespace Store

theorem step_explained {s : Store} (distinct : Name.Distinct s.names) (op : Operation)
    (calm : op = .clear → s.host.Calm) :
    Changes (s.step op).1.host.happened s.decks (s.step op).1.decks := by
  have calm_fresh : op = .clear → s.freshRecord.host.Calm :=
    fun clears => (calm clears).of_record rfl rfl
  obtain ⟨notices, happened, changes⟩ :=
    explained_perform (s := s.freshRecord) distinct op calm_fresh
  have all_new : (s.step op).1.host.happened = notices := happened
  rw [all_new]
  exact changes

/-- Of a draw or a resolution, notice is given of the entries taken out and of nothing else. -/
theorem step_consumes {s : Store} {op : Operation}
    (takes : (∃ name, op = .draw name) ∨ ∃ text, op = .resolve text) :
    (s.step op).1.host.happened = (s.step op).1.consumed.map Removal.notice ∧
      Taken (s.step op).1.consumed s.decks (s.step op).1.decks := by
  have consumes : Consumes s.freshRecord.toTable (s.step op).1.toTable := by
    rcases takes with ⟨name, rfl⟩ | ⟨text, rfl⟩
    · simpa only [step, perform, Outcome.map_fst] using draw_consumes s.freshRecord name
    · simpa only [step, perform, Outcome.map_fst] using resolve_consumes s.freshRecord text
  obtain ⟨removals, consumed, happened, taken⟩ := consumes
  have all_new : (s.step op).1.consumed = removals := consumed
  rw [all_new]
  exact ⟨happened, taken⟩

/-- A step that gives no notice leaves the decks as they were; else they changed as the notices
tell. A clearing is told in full where no listener it comes to raises an error. -/
theorem step_announces_changes {s : Store} (reachable : Reachable s) (op : Operation)
    (calm : op = .clear → s.host.Calm) :
    ((s.step op).1.host.happened = [] → (s.step op).1.decks = s.decks) ∧
      Changes (s.step op).1.host.happened s.decks (s.step op).1.decks ∧
      ((∃ name, op = .draw name) ∨ (∃ text, op = .resolve text) →
        (s.step op).1.host.happened = (s.step op).1.consumed.map Removal.notice ∧
          Taken (s.step op).1.consumed s.decks (s.step op).1.decks) := by
  have changes := step_explained reachable.distinct op calm
  refine ⟨?_, changes, step_consumes⟩
  intro silent
  rw [silent] at changes
  exact changes.eq_of_nil

def leaving : Store := (underscored.step (.subscribe "once".toList .leave)).1

theorem leaving_calm : leaving.host.Calm := by
  apply Audience.Calm.of_known
  · decide
  · decide

theorem step_announces_changes_of_leaving :
    Reachable leaving ∧ leaving.host.Calm ∧
      Changes [⟨.deleted, "_a".toList⟩, ⟨.deleted, "__b".toList⟩] leaving.decks
        (leaving.step .clear).1.decks := by
  have reachable : Reachable leaving := underscored_reachable.stepped _
  refine ⟨reachable, leaving_calm, ?_⟩
  exact (step_announces_changes reachable .clear fun _ => leaving_calm).2.1

end Store

end DrawPile
