import DrawPile.Proofs.Outcome
import DrawPile.Store.Operation

/-! The shape of an answer, whoever listens. All checks of an operation stand before its changes,
and its changes before its notice: so it gives no notice, and changes nothing that is stored if it
fails, or its one notice is the last that it does. Clearing gives a notice for each deck, and
drawing and resolving give notice of each entry that they take; they are kept apart. -/
namespace DrawPile.Store
variable {α : Type}

/-- The same store before another audience. -/
def before (s : Store) (a : Audience) : Store := { s with host := a }

/-- The operations that replace references. -/
def Operation.Resolves (op : Operation) : Prop :=
  (∃ name, op = .draw name) ∨ ∃ text, op = .resolve text

def Operation.resolves : Operation → Bool
  | .draw _ => true
  | .resolve _ => true
  | _ => false

theorem Operation.resolves_iff (op : Operation) : op.resolves = true ↔ op.Resolves := by
  cases op <;> simp [resolves, Resolves]

instance (op : Operation) : Decidable op.Resolves := decidable_of_iff _ op.resolves_iff

/-- Whether an operation is about the audience and not about the decks. -/
def Operation.listens : Operation → Bool
  | .subscribe _ _ => true
  | .unsubscribe _ => true
  | _ => false

/- What a store answers before each audience: nothing is told, or one notice is given at the end. -/
inductive Answers (s : Store) (f : Audience → Outcome Store α) : Prop
  | quietly (t : Store) (result : Except Error α) (same : ∀ a, f a = (t.before a, result))
      (kept : ∀ e, result = .error e → t.decks = s.decks ∧ t.settings = s.settings)
  | aloud (t : Store) (event : Event) (deck : Text) (result : α)
      (same : ∀ a, f a = (t.before a).announce event deck result)

theorem announce_map {β : Type} (s : Store) (event : Event) (deck : Text) (result : α) (g : α → β) :
    (s.announce event deck result).map g = s.announce event deck (g result) := by
  unfold announce
  rcases s.host.announce ⟨event, deck⟩ with ⟨host, e | u⟩ <;> rfl

namespace Answers

theorem of_result (s : Store) (result : Except Error α) :
    Answers s fun a => (s.before a, result) :=
  .quietly s result (fun _ => rfl) fun _ _ => ⟨rfl, rfl⟩

theorem of_announce {s : Store} (t : Store) (event : Event) (deck : Text) (result : α) :
    Answers s fun a => (t.before a).announce event deck result :=
  .aloud t event deck result fun _ => rfl

theorem map {β : Type} {s : Store} {f : Audience → Outcome Store α} (answers : Answers s f)
    (g : α → β) :
    Answers s fun a => (f a).map g := by
  cases answers with
  | quietly t result same kept =>
    cases result with
    | error e => exact .quietly t (.error e) (fun a => by rw [same]; rfl) fun _ _ => kept e rfl
    | ok value => exact .quietly t (.ok (g value)) (fun a => by rw [same]; rfl) nofun
  | aloud t event deck result same =>
    exact .aloud t event deck (g result) fun a => by rw [same, announce_map]

theorem withDeck {s : Store} {name : Text} {f : Audience → List Text → Outcome Store α}
    (each : ∀ entries, Answers s fun a => f a entries) :
    Answers s fun a => (s.before a).withDeck name (f a) := by
  cases found : s.decks.get? name with
  | none =>
    refine .quietly s (.error (.unknownDeck name)) (fun a => ?_) fun _ _ => ⟨rfl, rfl⟩
    have missing : (s.before a).decks.get? name = none := found
    simp only [Store.withDeck, require, missing, Outcome.of_error, Outcome.andThen_error]
  | some entries =>
    have goes_on (a : Audience) : (s.before a).withDeck name (f a) = f a entries := by
      have there : (s.before a).decks.get? name = some entries := found
      simp only [Store.withDeck, require, there, Outcome.of_ok, Outcome.andThen_ok]
    simpa only [goes_on] using each entries

theorem withEntry {s : Store} {name : Text} {index : Int}
    {f : Audience → List Text → Nat → Outcome Store α}
    (each : ∀ entries place, Answers s fun a => f a entries place) :
    Answers s fun a => (s.before a).withEntry name index (f a) := by
  refine withDeck fun entries => ?_
  split
  · exact each entries _
  · exact .of_result s _

theorem createDeck (s : Store) (wanted : Option Text) :
    Answers s fun a => (s.before a).createDeck wanted := by
  let free := freeName s.names (nonBlankOr s.settings.defaultDeckName (wanted.getD []))
  exact .of_announce { s with decks := s.decks ++ [(free, [])] } .created free free

theorem deleteDeck (s : Store) (name : Text) :
    Answers s fun a => (s.before a).deleteDeck name :=
  withDeck fun _ => .of_announce { s with decks := s.decks.erase name } .deleted name ()

theorem giveName (s : Store) (name target : Text) :
    Answers s fun a => (s.before a).giveName name target := by
  unfold Store.giveName
  simp only [before, names]
  split
  · exact .of_announce { s with decks := s.decks.rename name target } .renamed target target
  · exact .of_result s _

theorem renameDeck (s : Store) (name newName : Text) :
    Answers s fun a => (s.before a).renameDeck name newName := by
  refine withDeck fun entries => ?_
  have target_same (a : Audience) :
      (s.before a).renameTarget name newName = s.renameTarget name newName := rfl
  simp only [target_same]
  split
  · exact .of_result s _
  · exact giveName s name _

theorem setHidden (s : Store) (name : Text) (hidden : Bool) :
    Answers s fun a => (s.before a).setHidden name hidden := by
  refine withDeck fun entries => ?_
  split
  · exact .of_result s _
  · exact giveName s name _

theorem moveDeck (s : Store) (name : Text) (offset : Int) :
    Answers s fun a => (s.before a).moveDeck name offset := by
  refine withDeck fun entries => ?_
  simp only [before, names]
  split
  · exact .of_result s _
  · exact .of_announce { s with decks := _ } .reordered name true

theorem setEntries (s : Store) (name : Text) (entries : List Text) (result : α) :
    Answers s fun a => (s.before a).setEntries name entries result :=
  .of_announce { s with decks := s.decks.put name entries } .updated name result

theorem moveEntry (s : Store) (name : Text) (index offset : Int) :
    Answers s fun a => (s.before a).moveEntry name index offset := by
  refine withEntry fun entries place => ?_
  split
  · exact .of_result s _
  · exact setEntries s name _ true

theorem distribution (s : Store) (name : Text) :
    Answers s fun a => (s.before a).distribution name := by
  refine withDeck fun entries => ?_
  simp only [before]
  rcases DrawPile.distribution entries s.settings.labelLength s.source with ⟨source, result⟩
  exact .quietly { s with source } result (fun _ => rfl) fun _ _ => ⟨rfl, rfl⟩

theorem importDecks (s : Store) (payload : Payload) (merge : Bool) :
    Answers s fun a => (s.before a).importDecks payload merge := by
  unfold Store.importDecks
  split
  · exact .of_result s _
  · next members _ =>
    unfold importObject
    simp only [before]
    rcases Decks.repair members with e | imported
    · exact .of_result s (.error e)
    simp only [Outcome.of_ok, Outcome.andThen_ok]
    rcases checked _ with e | decks
    · exact .quietly { s with warnings := s.warnings ++ Decks.repairWarnings members } (.error e)
        (fun _ => rfl) fun _ _ => ⟨rfl, rfl⟩
    · exact .of_announce
        { s with warnings := s.warnings ++ Decks.repairWarnings members, decks } .replaced [] _
  · exact .of_result s _

end Answers

theorem perform_answers (s : Store) {op : Operation} (others : ¬ op.Resolves)
    (asks : op.listens = false) (keeps : op ≠ .clear) :
    Answers s fun a => (s.before a).perform op := by
  cases op with
  | names => exact .of_result s (s.perform .names).2
  | contains name => exact .of_result s (s.perform (.contains name)).2
  | search keyword => exact .of_result s (s.perform (.search keyword)).2
  | exportDecks indent => exact .of_result s (s.perform (.exportDecks indent)).2
  | rawEntries name => exact .of_result s (s.perform (.rawEntries name)).2
  | entries name => exact .of_result s (s.perform (.entries name)).2
  | subscribe id habit => cases asks
  | unsubscribe id => cases asks
  | assign field value =>
    unfold perform
    simp only [before]
    cases s.settings.assign field value with
    | error e => exact .of_result s _
    | ok settings => exact .quietly { s with settings } _ (fun _ => rfl) nofun
  | createDeck name => exact (Answers.createDeck s name).map _
  | deleteDeck name => exact (Answers.deleteDeck s name).map _
  | clear => exact absurd rfl keeps
  | renameDeck name newName => exact (Answers.renameDeck s name newName).map _
  | setHidden name hidden => exact (Answers.setHidden s name hidden).map _
  | toggleHidden name => exact (Answers.setHidden s name _).map _
  | moveDeck name offset => exact (Answers.moveDeck s name offset).map _
  | addEntry name content weight =>
    exact (Answers.withDeck fun _ => Answers.setEntries s name _ _).map _
  | updateEntry name index content weight =>
    exact (Answers.withEntry fun _ _ => Answers.setEntries s name _ _).map _
  | removeEntry name index =>
    exact (Answers.withEntry fun _ _ => Answers.setEntries s name _ _).map _
  | moveEntry name index offset => exact (Answers.moveEntry s name index offset).map _
  | distribution name => exact (Answers.distribution s name).map _
  | importDecks payload merge => exact (Answers.importDecks s payload merge).map _
  | draw name => exact absurd (.inl ⟨name, rfl⟩) others
  | resolve text => exact absurd (.inr ⟨text, rfl⟩) others

/-- What each notice keeps is kept where one is given for each deck. -/
theorem announceDeleted_keeps {s : Store} (kept : Store → Prop)
    (step : ∀ s name, kept s → kept (s.announce .deleted name ()).1) (names : List Text)
    (start : kept s) : kept (announceDeleted names s).1 := by
  induction names generalizing s with
  | nil => exact start
  | cons name names ih =>
    have next := step s name start
    rw [announceDeleted]
    rcases told : s.announce .deleted name () with ⟨t, e | u⟩ <;> rw [told] at next
    · exact next
    · exact ih next

end DrawPile.Store
