import DrawPile.Proofs.Store.Answer

/-! The settings of a store are changed by assignments and by nothing else. -/
namespace DrawPile.Store

theorem withDeck_settings {s : Store} {α : Type} {name : Text} {f : List Text → Outcome Store α}
    (each : ∀ entries, (f entries).1.settings = s.settings) :
    (s.withDeck name f).1.settings = s.settings := by
  unfold withDeck
  rcases s.require name with e | entries
  · rfl
  · exact each entries

theorem withEntry_settings {s : Store} {α : Type} {name : Text} {index : Int}
    {f : List Text → Nat → Outcome Store α}
    (each : ∀ entries place, (f entries place).1.settings = s.settings) :
    (s.withEntry name index f).1.settings = s.settings := by
  refine withDeck_settings fun entries => ?_
  split
  · exact each entries _
  · rfl

theorem giveName_settings (s : Store) (name target : Text) :
    (s.giveName name target).1.settings = s.settings := by
  unfold giveName
  split <;> rfl

theorem setHidden_settings (s : Store) (name : Text) (hidden : Bool) :
    (s.setHidden name hidden).1.settings = s.settings := by
  refine withDeck_settings fun entries => ?_
  split
  · rfl
  · exact giveName_settings ..

theorem resolve_settings (s : Store) (text : Text) :
    (s.resolve text).1.settings = s.settings := by
  unfold resolve
  rcases Reference.Limits.ofInts? s.settings.maxDepth s.settings.maxDraws with e | limits <;> rfl

theorem draw_settings (s : Store) (name : Text) : (s.draw name).1.settings = s.settings := by
  unfold draw
  split
  · rfl
  · rcases drawEntry (s.entries name) (some name) s.source with ⟨source, e | content⟩
    · rfl
    · exact resolve_settings { s with source } content

theorem importDecks_settings (s : Store) (payload : Payload) (merge : Bool) :
    (s.importDecks payload merge).1.settings = s.settings := by
  unfold importDecks
  split
  · rfl
  · next members _ =>
    unfold importObject
    rcases Decks.repair members with e | imported
    · rfl
    simp only [Outcome.of_ok, Outcome.andThen_ok]
    rcases checked _ with e | decks <;> rfl
  · rfl

/-- Only an assignment changes the settings. -/
theorem perform_settings {op : Operation} (s : Store)
    (others : ∀ field value, op ≠ .assign field value) :
    (s.perform op).1.settings = s.settings := by
  cases op with
  | assign field value => exact absurd rfl (others field value)
  | names | contains | search | rawEntries | entries | exportDecks | subscribe | unsubscribe => rfl
  | createDeck name => simp only [perform, Outcome.map_fst]; rfl
  | clear =>
    simp only [perform, Outcome.map_fst]
    exact announceDeleted_keeps (fun t => t.settings = s.settings) (fun _ _ same => same) _ rfl
  | deleteDeck name =>
    simp only [perform, Outcome.map_fst]
    exact withDeck_settings fun _ => rfl
  | renameDeck name newName =>
    simp only [perform, Outcome.map_fst]
    refine withDeck_settings fun _ => ?_
    simp only
    split
    · rfl
    · exact giveName_settings ..
  | setHidden name hidden =>
    simp only [perform, Outcome.map_fst]
    exact setHidden_settings s name hidden
  | toggleHidden name =>
    simp only [perform, Outcome.map_fst]
    exact setHidden_settings s name _
  | moveDeck name offset =>
    simp only [perform, Outcome.map_fst]
    refine withDeck_settings fun _ => ?_
    simp only
    split <;> rfl
  | addEntry name content weight =>
    simp only [perform, Outcome.map_fst]
    exact withDeck_settings fun _ => rfl
  | updateEntry name index content weight =>
    simp only [perform, Outcome.map_fst]
    exact withEntry_settings fun _ _ => rfl
  | removeEntry name index =>
    simp only [perform, Outcome.map_fst]
    exact withEntry_settings fun _ _ => rfl
  | moveEntry name index offset =>
    simp only [perform, Outcome.map_fst]
    refine withEntry_settings fun _ _ => ?_
    split <;> rfl
  | draw name =>
    simp only [perform, Outcome.map_fst]
    exact draw_settings s name
  | resolve text =>
    simp only [perform, Outcome.map_fst]
    exact resolve_settings s text
  | distribution name =>
    simp only [perform, Outcome.map_fst]
    exact withDeck_settings fun _ => rfl
  | importDecks payload merge =>
    simp only [perform, Outcome.map_fst]
    exact importDecks_settings s payload merge

theorem step_settings {op : Operation} (s : Store)
    (others : ∀ field value, op ≠ .assign field value) :
    (s.step op).1.settings = s.settings :=
  perform_settings s.freshRecord others

end DrawPile.Store
