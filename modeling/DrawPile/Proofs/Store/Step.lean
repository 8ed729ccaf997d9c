import DrawPile.Proofs.Reference.Conservation
import DrawPile.Proofs.Repair
import DrawPile.Proofs.Store.Change

/-! What one operation does to the decks of a store, in one statement over all operations, and the
stores that operations lead to. -/
namespace DrawPile

/-- Entries were taken out of decks, each with its notice, and nothing else was done to them. -/
def Consumes (t t' : Table Audience) : Prop :=
  ∃ removals, t'.consumed = t.consumed ++ removals ∧
    t'.host.happened = t.host.happened ++ removals.map Removal.notice ∧
    Taken removals t.decks t'.decks

theorem Consumes.of_same {t t' : Table Audience} (consumed : t'.consumed = t.consumed)
    (happened : t'.host.happened = t.host.happened) (decks : t'.decks = t.decks) :
    Consumes t t' :=
  ⟨[], by rw [consumed, List.append_nil], by rw [happened, List.map_nil, List.append_nil],
    decks ▸ .nothing _⟩

theorem Consumes.explained {t t' : Table Audience} (consumes : Consumes t t') : Explained t t' := by
  obtain ⟨removals, -, happened, taken⟩ := consumes
  exact ⟨removals.map Removal.notice, happened, taken.changes⟩

namespace Store
variable {s : Store}

theorem resolve_consumes (s : Store) (text : Text) :
    Consumes s.toTable (s.resolve text).1.toTable := by
  unfold resolve
  rcases Reference.Limits.ofInts? s.settings.maxDepth s.settings.maxDraws with e | limits
  · exact .of_same rfl rfl rfl
  · obtain ⟨rs, heard, draws, -⟩ :=
      Reference.performs_resolve limits observer text s.toTable
    obtain ⟨happened, taken⟩ := draws.announced
    exact ⟨Reference.removals rs, draws.accounts.consumed, happened, taken⟩

theorem draw_consumes (s : Store) (name : Text) :
    Consumes s.toTable (s.draw name).1.toTable := by
  unfold draw
  split
  · exact .of_same rfl rfl rfl
  · rcases drawEntry (s.entries name) (some name) s.source with ⟨source, e | content⟩
    · exact .of_same rfl rfl rfl
    · exact resolve_consumes { s with source } content

theorem distribution_same (s : Store) (name : Text) :
    Explained s.toTable (s.distribution name).1.toTable := by
  refine explained_withDeck fun entries _ => ?_
  rcases DrawPile.distribution entries s.settings.labelLength s.source with ⟨source, result⟩
  exact .of_same rfl rfl

theorem announceDeleted_decks (names : List Text) (s : Store) :
    (announceDeleted names s).1.decks = s.decks := by
  induction names generalizing s with
  | nil => rfl
  | cons name names ih =>
    have same : (s.announce .deleted name ()).1.decks = s.decks := rfl
    rw [announceDeleted]
    rcases told : s.announce .deleted name () with ⟨next, e | u⟩ <;> rw [told] at same
    · exact same
    · exact (ih next).trans same

theorem clear_decks (s : Store) : s.clear.1.decks = [] := announceDeleted_decks _ _

theorem announceDeleted_happened {a : Audience} (calm : a.Calm) (names : List Text) (s : Store)
    (within : a.Within s.host) :
    (announceDeleted names s).1.host.happened =
      s.host.happened ++ names.map fun name => ⟨.deleted, name⟩ := by
  -- The audience may change with every notice, but only to one within the first.
  induction names generalizing s with
  | nil => simp [announceDeleted]
  | cons name names ih =>
    have answer : (s.host.announce ⟨.deleted, name⟩).2 = .ok () := by
      rw [Audience.announce_snd, Audience.answer_eq_ok (within.calm calm)]
    have told : s.announce .deleted name () =
        ({ s with host := (s.host.announce ⟨.deleted, name⟩).1 }, .ok ()) := by
      unfold announce
      simp only [answer]
      rfl
    rw [announceDeleted, told, Outcome.andThen_ok, ih _ (within.announce _)]
    simp

theorem changes_deleted (decks : Decks) :
    Changes (decks.names.map fun name => ⟨.deleted, name⟩) decks [] := by
  induction decks with
  | nil => exact .unchanged []
  | cons deck decks ih => exact .next (.deleted [] decks deck.1 deck.2) ih

theorem explained_clear (calm : s.host.Calm) : Explained s.toTable s.clear.1.toTable := by
  refine ⟨s.names.map fun name => ⟨.deleted, name⟩, ?_, ?_⟩
  · exact announceDeleted_happened calm s.names { s with decks := [] } (.refl _)
  · rw [clear_decks]
    exact changes_deleted s.decks

/-- Every operation explains itself; a clearing does if nothing stops it. -/
theorem explained_perform (distinct : Name.Distinct s.names) (op : Operation)
    (calm : op = .clear → s.host.Calm) : Explained s.toTable (s.perform op).1.toTable := by
  cases op with
  | names => exact .of_same rfl rfl
  | contains => exact .of_same rfl rfl
  | search => exact .of_same rfl rfl
  | rawEntries => exact .of_same rfl rfl
  | entries => exact .of_same rfl rfl
  | exportDecks => exact .of_same rfl rfl
  | subscribe id habit => exact .of_same (Audience.subscribe_happened ..) rfl
  | unsubscribe id => exact .of_same (Audience.unsubscribe_happened ..) rfl
  | assign field value =>
    simp only [perform]
    rcases s.settings.assign field value with e | settings <;> exact .of_same rfl rfl
  | createDeck name => simpa only [perform, Outcome.map_fst] using explained_createDeck name
  | deleteDeck name => simpa only [perform, Outcome.map_fst] using explained_deleteDeck distinct
  | clear => simpa only [perform, Outcome.map_fst] using explained_clear (calm rfl)
  | renameDeck name newName =>
    simpa only [perform, Outcome.map_fst] using explained_renameDeck distinct newName
  | setHidden name hidden =>
    simpa only [perform, Outcome.map_fst] using explained_setHidden distinct hidden
  | toggleHidden name =>
    simpa only [perform, toggleHidden, Outcome.map_fst] using explained_setHidden distinct _
  | moveDeck name offset => simpa only [perform, Outcome.map_fst] using explained_moveDeck offset
  | addEntry name content weight =>
    simp only [perform, Outcome.map_fst]
    exact explained_withDeck fun entries found => explained_setEntries found _ _
  | updateEntry name index content weight =>
    simp only [perform, Outcome.map_fst]
    exact explained_withEntry fun entries place found => explained_setEntries found _ _
  | removeEntry name index =>
    simp only [perform, Outcome.map_fst]
    exact explained_withEntry fun entries place found => explained_setEntries found _ _
  | moveEntry name index offset =>
    simpa only [perform, Outcome.map_fst] using explained_moveEntry index offset
  | draw name => simpa only [perform, Outcome.map_fst] using (draw_consumes s name).explained
  | resolve text => simpa only [perform, Outcome.map_fst] using (resolve_consumes s text).explained
  | distribution name => simpa only [perform, Outcome.map_fst] using distribution_same s name
  | importDecks payload merge =>
    simpa only [perform, Outcome.map_fst] using explained_importDecks payload merge

/-- A step keeps base names distinct, also where a clearing is cut short. -/
theorem step_distinct (distinct : Name.Distinct s.names) (op : Operation) :
    Name.Distinct (s.step op).1.names := by
  by_cases clears : op = .clear
  · subst clears
    have gone : (s.step .clear).1.names = [] := by
      simp only [step, perform, Outcome.map_fst, names, clear_decks, Catalog.names_nil]
    rw [gone]
    exact List.nodup_nil
  · obtain ⟨notices, -, changes⟩ := explained_perform (s := s.freshRecord) distinct op
      (absurd · clears)
    exact changes.distinct distinct

theorem run_distinct (distinct : Name.Distinct s.names) (ops : List Operation) :
    Name.Distinct (s.run ops).names := by
  induction ops generalizing s with
  | nil => exact distinct
  | cons op ops ih => exact ih (step_distinct distinct op)

theorem ofJson_eq_ok {data : Json} {settings : Settings} {source : Source}
    {warnings : List Warning} (built : ofJson data settings source = (warnings, .ok s)) :
    ∃ decks, Name.Distinct decks.names ∧ s = { decks, source, host := {}, settings } := by
  unfold ofJson at built
  split at built
  · next members =>
    rcases repaired : Decks.repair members with e | given
    · simp [repaired] at built
    · rcases accepted : checked given with e | decks
      · simp [repaired, accepted] at built
      · obtain ⟨rfl, distinct⟩ := distinct_of_checked accepted
        simp only [repaired, accepted, Outcome.of_ok, Outcome.andThen_ok, Outcome.map_ok,
          Prod.mk.injEq, Except.ok.injEq] at built
        exact ⟨decks, distinct, built.2.symm⟩
  · cases built
    exact ⟨[], List.nodup_nil, rfl⟩

theorem ofJson_distinct {data : Json} {settings : Settings} {source : Source}
    {warnings : List Warning} (built : ofJson data settings source = (warnings, .ok s)) :
    Name.Distinct s.names := by
  obtain ⟨decks, distinct, rfl⟩ := ofJson_eq_ok built
  exact distinct

theorem ofJson_host {data : Json} {settings : Settings} {source : Source}
    {warnings : List Warning} (built : ofJson data settings source = (warnings, .ok s)) :
    s.host = {} := by
  obtain ⟨decks, -, rfl⟩ := ofJson_eq_ok built
  rfl

theorem ofJson_toJson {decks : Decks} (distinct : Name.Distinct decks.names) (settings : Settings)
    (source : Source) :
    ofJson decks.toJson settings source = ([], .ok { decks, source, host := {}, settings }) := by
  have accepted : checked decks = .ok decks := checked_of_distinct distinct
  simp only [ofJson, Decks.toJson_eq, Decks.repair_members, Decks.repairWarnings_members, accepted,
    Outcome.of_ok, Outcome.andThen_ok, Outcome.map_ok]

/-- No two decks share a base name, in whatever state a run leaves the store: so names are
distinct, a name and its hidden form are never both there, and names on display are distinct. -/
theorem run_names_distinct {s : Store} {data : Json} {settings : Settings} {source : Source}
    {warnings : List Warning} (built : ofJson data settings source = (warnings, .ok s))
    (ops : List Operation) :
    Name.Distinct (s.run ops).names ∧ (s.run ops).names.Nodup ∧
      (∀ name ∈ (s.run ops).names, Name.isHidden name = false →
        Name.hide name ∉ (s.run ops).names) ∧
      (s.run ops).displayNames.Nodup := by
  have distinct := run_distinct (ofJson_distinct built) ops
  refine ⟨distinct, distinct.nodup, ?_, distinct⟩
  intro name present visible
  exact distinct.not_mem_hide present visible

def underscored : Store where
  decks := [("_a".toList, []), ("__b".toList, ["x".toList])]
  source := .cycle #[]
  host := {}

theorem ofJson_underscored :
    ofJson underscored.decks.toJson {} (.cycle #[]) = ([], .ok underscored) := by
  have distinct : Name.Distinct underscored.decks.names := by decide
  exact ofJson_toJson distinct {} (.cycle #[])

theorem run_names_distinct_of_underscored :
    ofJson underscored.decks.toJson {} (.cycle #[]) = ([], .ok underscored) ∧
      Name.Distinct (underscored.run [.createDeck (some "a".toList),
        .setHidden "__b".toList false, .renameDeck "a(1)".toList "b".toList]).names :=
  ⟨ofJson_underscored, (run_names_distinct ofJson_underscored _).1⟩

/-- Stores that operations lead to from one of accepted settings and deck data, whether the
operations succeed or not. -/
inductive Reachable : Store → Prop
  | built {s : Store} {given : Catalog Json} {data : Json} {settings : Settings} {source : Source}
      {warnings : List Warning} (valid : Settings.ofCatalog given = .ok settings)
      (made : ofJson data settings source = (warnings, .ok s)) : Reachable s
  | stepped {s : Store} (before : Reachable s) (op : Operation) : Reachable (s.step op).1

theorem underscored_reachable : Reachable underscored := by
  have valid : Settings.ofCatalog [] = .ok {} := rfl
  exact .built valid ofJson_underscored

theorem Reachable.distinct (reachable : Reachable s) : Name.Distinct s.names := by
  induction reachable with
  | built _ made => exact ofJson_distinct made
  | stepped _ op ih => exact step_distinct ih op

end Store

end DrawPile
