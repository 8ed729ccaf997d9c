import DrawPile.Proofs.Store.Renaming

/-! The decks on show, and what a new name does to them. A hidden deck is hidden under any new name,
but so is a visible one under a new name that begins with the mark: then it goes from the list of
visible decks. At every other name the list changes only in the place of the deck. -/
namespace DrawPile

/-- The name as it stands in a list of visible names, if it does. -/
def Name.shown (name : Text) : List Text := if isHidden name then [] else [name]

theorem Name.filter_visible_cons (name : Text) (names : List Text) :
    (name :: names).filter (fun n => !isHidden n) =
      shown name ++ names.filter fun n => !isHidden n := by
  cases hidden : isHidden name <;> simp [shown, hidden]

namespace Store
variable {s : Store} {name : Text}

/-- The lists of visible names are the same but for one place, where one name stands for another. -/
def ShownAs (name target : Text) (s t : Store) : Prop :=
  ∃ front back, s.visibleNames = front ++ Name.shown name ++ back ∧
    t.visibleNames = front ++ Name.shown target ++ back

theorem visibleNames_append {front back : Decks} {entries : List Text}
    (split : s.decks = front ++ (name, entries) :: back) :
    s.visibleNames = front.names.filter (fun n => !Name.isHidden n) ++ Name.shown name ++
      back.names.filter fun n => !Name.isHidden n := by
  rw [visibleNames, names, split, Catalog.names_append, Catalog.names_cons, List.filter_append,
    Name.filter_visible_cons, List.append_assoc]

theorem shownAs_of_renamed {t : Store} {target : Text}
    (renamed : Decks.Renamed name target s.decks t.decks) :
    ShownAs name target s t := by
  obtain ⟨front, back, entries, before, behind⟩ := renamed
  exact ⟨_, _, visibleNames_append before, visibleNames_append behind⟩

theorem shownAs_refl (present : name ∈ s.names) : ShownAs name name s s := by
  obtain ⟨entries, found⟩ := Catalog.exists_of_mem_names present
  obtain ⟨front, back, split, -⟩ := Catalog.split_of_get? found
  exact ⟨_, _, visibleNames_append split, visibleNames_append split⟩

namespace ShownAs

theorem eq_of_hidden {t : Store} {target : Text} (as : ShownAs name target s t)
    (hidden : Name.isHidden name = true) (still : Name.isHidden target = true) :
    t.visibleNames = s.visibleNames := by
  obtain ⟨front, back, before, behind⟩ := as
  simp only [before, behind, Name.shown, hidden, still, if_true]

theorem length_eq_iff {t : Store} {target : Text} (as : ShownAs name target s t) :
    t.visibleNames.length = s.visibleNames.length ↔
      Name.isHidden target = Name.isHidden name := by
  obtain ⟨front, back, before, behind⟩ := as
  rw [before, behind]
  cases hidden : Name.isHidden name <;> cases still : Name.isHidden target <;>
    simp [Name.shown, hidden, still]

end ShownAs

/-- What is given back is the name that the deck has, and it stands in the place of the old one. -/
theorem Renames.shownAs {target given : Text} {o : Outcome Store Reply}
    (renames : Renames s name target o) (present : name ∈ s.names)
    (returned : o.2 = .ok (.text given)) : given = target ∧ ShownAs name target s o.1 := by
  cases renames with
  | same kept =>
    subst kept
    cases returned
    exact ⟨rfl, shownAs_refl present⟩
  | refused => cases returned
  | named other free named =>
    refine ⟨?_, shownAs_of_renamed named.decks⟩
    rw [named.result, Audience.answer] at returned
    split at returned <;> cases returned
    rfl

theorem present_of_renamed {newName given : Text}
    (returned : (s.step (.renameDeck name newName)).2 = .ok (.text given)) :
    name ∈ s.names := by
  cases found : s.decks.get? name with
  | some entries => exact Catalog.mem_names_of_get? found
  | none =>
    have missing : s.freshRecord.decks.get? name = none := found
    simp only [step, perform, renameDeck, withDeck, require, missing] at returned
    cases returned

/-- The name that is asked for: the new one, trimmed, or the usual one where that leaves nothing. -/
def askedName (s : Store) (newName : Text) : Text :=
  nonBlankOr s.settings.untitledDeckName newName

theorem isHidden_renameTarget (s : Store) (name newName : Text) :
    Name.isHidden (s.renameTarget name newName) = true ↔
      Name.isHidden name = true ∨ Name.isHidden (s.askedName newName) = true := by
  have marks (asked : Text) : Name.isHidden (Name.hide asked) = true := rfl
  unfold renameTarget askedName
  cases Name.isHidden name with
  | false => simp
  | true =>
    cases marked : Name.isHidden (nonBlankOr s.settings.untitledDeckName newName) <;>
      simp [marked, marks]

/-- A deck is hidden under its new name exactly if it was hidden or the name asked for begins with
the mark. The visible names are the same but for the place of the deck: so they are the same where it
was hidden, and they are as many as before exactly if it was, or the name asked for has no mark. -/
theorem rename_keeps_hidden_iff {s : Store} {name newName given : Text} (reachable : Reachable s)
    (returned : (s.step (.renameDeck name newName)).2 = .ok (.text given)) :
    (Name.isHidden given = true ↔
      Name.isHidden name = true ∨ Name.isHidden (s.askedName newName) = true) ∧
    ShownAs name given s (s.step (.renameDeck name newName)).1 ∧
    (Name.isHidden name = true →
      (s.step (.renameDeck name newName)).1.visibleNames = s.visibleNames) ∧
    ((s.step (.renameDeck name newName)).1.visibleNames.length = s.visibleNames.length ↔
      Name.isHidden name = true ∨ Name.isHidden (s.askedName newName) = false) := by
  have present := present_of_renamed returned
  have renames := renameDeck_renames reachable.distinct present newName
  obtain ⟨rfl, as⟩ := renames.shownAs present returned
  have hidden_iff := isHidden_renameTarget s name newName
  refine ⟨hidden_iff, as, ?_, ?_⟩
  · intro hidden
    exact as.eq_of_hidden hidden (hidden_iff.2 (.inl hidden))
  · rw [as.length_eq_iff]
    cases hidden : Name.isHidden name <;> cases asked : Name.isHidden (s.askedName newName) <;>
      simp_all

theorem rename_keeps_hidden_iff_of_crowded :
    (crowded.step (.renameDeck "__b".toList " c ".toList)).2 = .ok (.text "_c".toList) ∧
      (crowded.step (.renameDeck "__b".toList " c ".toList)).1.visibleNames =
        crowded.visibleNames := by
  have returned :
      (crowded.step (.renameDeck "__b".toList " c ".toList)).2 = .ok (.text "_c".toList) := rfl
  exact ⟨returned, (rename_keeps_hidden_iff crowded_reachable returned).2.2.1 rfl⟩

theorem rename_hides_visible :
    Reachable crowded ∧ Name.isHidden "b".toList = false ∧
      (crowded.step (.renameDeck "b".toList "_x".toList)).2 = .ok (.text "_x".toList) ∧
      Name.isHidden "_x".toList = true ∧ crowded.visibleNames = ["b".toList] ∧
      (crowded.step (.renameDeck "b".toList "_x".toList)).1.visibleNames = [] :=
  ⟨crowded_reachable, rfl, rfl, rfl, rfl, rfl⟩

end Store

end DrawPile
