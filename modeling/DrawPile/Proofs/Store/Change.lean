import DrawPile.Proofs.Audience
import DrawPile.Proofs.Catalog
import DrawPile.Proofs.Name
import DrawPile.Proofs.Reference.Substitution
import DrawPile.Store.Operation
import Mathlib.Data.List.Nodup

/-! What a notice says of the decks. Each operation of a store changes its decks as the notices it
gives tell, one after another, and in no other way; a clearing alone may be stopped by a listener
before it has given notice of every deck. -/
namespace DrawPile

/-- The change of the decks that a notice stands for. Decks it does not name keep their places, and
a new name is one whose base name no other deck has. -/
inductive Change : Notice → Decks → Decks → Prop
  | created {decks : Decks} {name : Text} (free : Name.base name ∉ decks.names.map Name.base) :
      Change ⟨.created, name⟩ decks (decks ++ [(name, [])])
  | deleted (front back : Decks) (name : Text) (entries : List Text) :
      Change ⟨.deleted, name⟩ (front ++ (name, entries) :: back) (front ++ back)
  | renamed (front back : Decks) (old : Text) {new : Text} (entries : List Text)
      (free : Name.base new ∉ (front ++ back).names.map Name.base) :
      Change ⟨.renamed, new⟩ (front ++ (old, entries) :: back) (front ++ (new, entries) :: back)
  | reordered {decks after : Decks} (name : Text) (same : decks.Perm after) :
      Change ⟨.reordered, name⟩ decks after
  | updated (front back : Decks) (name : Text) (entries after : List Text) :
      Change ⟨.updated, name⟩ (front ++ (name, entries) :: back) (front ++ (name, after) :: back)
  | consumed (front back : Decks) (name : Text) (before : List Text) (raw : Text)
      (after : List Text) :
      Change ⟨.consumed, name⟩ (front ++ (name, before ++ raw :: after) :: back)
        (front ++ (name, before ++ after) :: back)
  | replaced (decks : Decks) {after : Decks} (distinct : Name.Distinct after.names) :
      Change ⟨.replaced, []⟩ decks after

inductive Changes : List Notice → Decks → Decks → Prop
  | unchanged (decks : Decks) : Changes [] decks decks
  | next {n : Notice} {ns : List Notice} {decks between after : Decks}
      (first : Change n decks between) (rest : Changes ns between after) :
      Changes (n :: ns) decks after

/- Entries taken out one after another, each from its deck. -/
inductive Taken : List Removal → Decks → Decks → Prop
  | nothing (decks : Decks) : Taken [] decks decks
  | next {front back decks : Decks} {name raw : Text} {before after : List Text}
      {rs : List Removal} (rest : Taken rs (front ++ (name, before ++ after) :: back) decks) :
      Taken (⟨name, raw⟩ :: rs) (front ++ (name, before ++ raw :: after) :: back) decks

def Removal.notice (r : Removal) : Notice := ⟨.consumed, r.deck⟩

theorem Taken.changes {rs : List Removal} {decks after : Decks} (taken : Taken rs decks after) :
    Changes (rs.map Removal.notice) decks after := by
  induction taken with
  | nothing => exact .unchanged _
  | next _ ih => exact .next (.consumed ..) ih

theorem Change.distinct {n : Notice} {decks after : Decks} (change : Change n decks after)
    (distinct : Name.Distinct decks.names) : Name.Distinct after.names := by
  unfold Name.Distinct at *
  cases change with
  | created free =>
    rw [Catalog.names_append, List.map_append]
    exact List.nodup_append_comm.1 (List.nodup_cons.2 ⟨free, distinct⟩)
  | deleted front back name entries =>
    simp only [Catalog.names_append, Catalog.names_cons, List.map_append, List.map_cons] at *
    exact (List.nodup_middle.1 distinct).tail
  | renamed front back old entries free =>
    simp only [Catalog.names_append, Catalog.names_cons, List.map_append, List.map_cons] at *
    exact List.nodup_middle.2 (List.nodup_cons.2 ⟨free, (List.nodup_middle.1 distinct).tail⟩)
  | reordered name same => exact ((same.map Prod.fst).map Name.base).nodup_iff.1 distinct
  | updated => simpa only [Catalog.names_append, Catalog.names_cons] using distinct
  | consumed => simpa only [Catalog.names_append, Catalog.names_cons] using distinct
  | replaced _ result => exact result

theorem Changes.distinct {ns : List Notice} {decks after : Decks} (changes : Changes ns decks after)
    (distinct : Name.Distinct decks.names) : Name.Distinct after.names := by
  induction changes with
  | unchanged => exact distinct
  | next first _ ih => exact ih (first.distinct distinct)

/-- The decks changed as the notices given since then tell. -/
def Explained (t t' : Table Audience) : Prop :=
  ∃ notices, t'.host.happened = t.host.happened ++ notices ∧ Changes notices t.decks t'.decks

theorem Explained.of_same {t t' : Table Audience} (happened : t'.host.happened = t.host.happened)
    (decks : t'.decks = t.decks) : Explained t t' :=
  ⟨[], by rw [happened, List.append_nil], decks ▸ .unchanged _⟩

theorem split_at_place {xs : List Text} {place : Nat} {raw : Text} (there : xs[place]? = some raw) :
    ∃ before after, xs = before ++ raw :: after ∧ xs.eraseIdx place = before ++ after := by
  obtain ⟨below, rfl⟩ := List.getElem?_eq_some_iff.1 there
  exact ⟨xs.take place, xs.drop (place + 1), by simp, List.eraseIdx_eq_take_drop_succ ..⟩

namespace Reference

/-- The audience of a store hears of every entry taken out, in order. -/
theorem Draws.announced {t t' : Table Audience} {rs : List Substitution}
    {heard : Except Error Unit} (draws : Draws Store.observer t rs t' heard) :
    t'.host.happened = t.host.happened ++ (removals rs).map Removal.notice ∧
      Taken (removals rs) t.decks t'.decks := by
  have step {t t' t'' : Table Audience} {r : Substitution} {rs : List Substitution}
      {heard : Except Error Unit} (first : Substitutes Store.observer t r t' heard)
      (rest : t''.host.happened = t'.host.happened ++ (removals rs).map Removal.notice ∧
        Taken (removals rs) t'.decks t''.decks) :
      t''.host.happened = t.host.happened ++ (removals (r :: rs)).map Removal.notice ∧
        Taken (removals (r :: rs)) t.decks t''.decks := by
    cases first with
    | @missing form name empty => cases form <;> exact rest
    | kept there => exact rest
    | @taken name raw there =>
      have found := Table.get?_of_entries there
      obtain ⟨front, back, decks, absent⟩ := Catalog.split_of_get? found
      obtain ⟨before, after, entries, left⟩ := split_at_place there
      refine ⟨?_, ?_⟩
      · rw [rest.1]
        simp [Store.observer, removals, Substitution.removal?, Removal.notice]
      · have taken := rest.2
        simp only [left, decks, Catalog.put_split absent] at taken
        rw [decks, entries]
        exact .next taken
  induction draws with
  | done => exact ⟨by simp [removals], .nothing _⟩
  | next first _ ih => exact step first ih
  | stopped last => exact step last ⟨by simp [removals], .nothing _⟩

end Reference

namespace Store
variable {α : Type} {s : Store} {name : Text}

theorem announce_snd (s : Store) (event : Event) (deck : Text) (result : α) :
    (s.announce event deck result).2 =
      (Audience.answer s.host.subscribed).map fun _ => result := by
  rw [← Audience.announce_snd s.host ⟨event, deck⟩]
  rfl

theorem explained_announce {decks : Decks} {event : Event} {deck : Text} (result : α)
    (change : Change ⟨event, deck⟩ s.decks decks) :
    Explained s.toTable (announce { s with decks } event deck result).1.toTable :=
  ⟨[⟨event, deck⟩], Audience.announce_happened .., .next change (.unchanged _)⟩

theorem explained_withDeck {f : List Text → Outcome Store α}
    (each : ∀ entries, s.decks.get? name = some entries →
      Explained s.toTable (f entries).1.toTable) :
    Explained s.toTable (s.withDeck name f).1.toTable := by
  unfold withDeck require
  cases found : s.decks.get? name with
  | none => exact .of_same rfl rfl
  | some entries => exact each entries found

theorem explained_withEntry {index : Int} {f : List Text → Nat → Outcome Store α}
    (each : ∀ entries place, s.decks.get? name = some entries →
      Explained s.toTable (f entries place).1.toTable) :
    Explained s.toTable (s.withEntry name index f).1.toTable := by
  refine explained_withDeck fun entries found => ?_
  split
  · exact each entries _ found
  · exact .of_same rfl rfl

theorem explained_setEntries {entries : List Text} (found : s.decks.get? name = some entries)
    (after : List Text) (result : α) :
    Explained s.toTable (s.setEntries name after result).1.toTable := by
  obtain ⟨front, back, decks, absent⟩ := Catalog.split_of_get? found
  refine explained_announce result ?_
  rw [decks, Catalog.put_split absent]
  exact .updated ..

theorem explained_createDeck (wanted : Option Text) :
    Explained s.toTable (s.createDeck wanted).1.toTable :=
  explained_announce _ (.created (Name.not_mem_base_of_no_conflicts (conflicts_freeName _ _)))

theorem explained_deleteDeck (distinct : Name.Distinct s.names) :
    Explained s.toTable (s.deleteDeck name).1.toTable := by
  refine explained_withDeck fun entries found => ?_
  obtain ⟨front, back, decks, absent, absent_after⟩ := Catalog.split_of_nodup distinct.nodup found
  refine explained_announce _ ?_
  rw [decks, Catalog.erase_split absent absent_after]
  exact .deleted ..

theorem rename_of_not_mem {decks : Decks} (target : Text) (absent : name ∉ decks.names) :
    decks.rename name target = decks := by
  unfold Decks.rename
  refine (List.map_congr_left fun d member => ?_).trans (List.map_id _)
  simp [Catalog.ne_of_not_mem absent member]

theorem rename_split {front back : Decks} {entries : List Text} (target : Text)
    (absent : name ∉ front.names) (absent_after : name ∉ back.names) :
    Decks.rename (front ++ (name, entries) :: back) name target =
      front ++ (target, entries) :: back := by
  have before := rename_of_not_mem target absent
  have after := rename_of_not_mem target absent_after
  simp only [Decks.rename] at before after
  simp [Decks.rename, before, after]

theorem explained_giveName (distinct : Name.Distinct s.names) {entries : List Text}
    (found : s.decks.get? name = some entries) (target : Text) :
    Explained s.toTable (s.giveName name target).1.toTable := by
  unfold giveName
  split
  · next free =>
    obtain ⟨front, back, decks, absent, absent_after⟩ := Catalog.split_of_nodup distinct.nodup found
    refine explained_announce _ ?_
    rw [decks, rename_split target absent absent_after]
    -- A deck that stands against the new name did so before: it is not the one renamed.
    refine .renamed front back name entries fun clash => ?_
    obtain ⟨other, present, same⟩ := List.mem_map.1 clash
    have different : other ≠ name := by
      rintro rfl
      rw [Catalog.names_append, List.mem_append] at present
      exact present.elim absent absent_after
    have present_before : other ∈ s.names := by
      simp only [names, decks, Catalog.names_append, Catalog.names_cons, List.mem_append,
        List.mem_cons] at present ⊢
      exact present.imp_right .inr
    exact Name.conflicts_eq_nil_iff.1 free other present_before (by simpa using different) same
  · exact .of_same rfl rfl

theorem explained_renameDeck (distinct : Name.Distinct s.names) (newName : Text) :
    Explained s.toTable (s.renameDeck name newName).1.toTable := by
  refine explained_withDeck fun entries found => ?_
  simp only
  split
  · exact .of_same rfl rfl
  · exact explained_giveName distinct found _

theorem explained_setHidden (distinct : Name.Distinct s.names) (hidden : Bool) :
    Explained s.toTable (s.setHidden name hidden).1.toTable := by
  refine explained_withDeck fun entries found => ?_
  split
  · exact .of_same rfl rfl
  · exact explained_giveName distinct found _

theorem exchange_perm (xs : List α) (i j : Nat) : xs.Perm (exchange xs i j) := by
  unfold exchange
  split
  · next a b first second =>
    obtain ⟨below, rfl⟩ := List.getElem?_eq_some_iff.1 first
    obtain ⟨below', rfl⟩ := List.getElem?_eq_some_iff.1 second
    exact (List.set_set_perm below below').symm
  · exact .refl xs

theorem explained_moveDeck (offset : Int) :
    Explained s.toTable (s.moveDeck name offset).1.toTable := by
  refine explained_withDeck fun entries found => ?_
  simp only
  split
  · exact .of_same rfl rfl
  · exact explained_announce _ (.reordered name (exchange_perm ..))

theorem explained_moveEntry (index offset : Int) :
    Explained s.toTable (s.moveEntry name index offset).1.toTable := by
  refine explained_withEntry fun entries place found => ?_
  split
  · exact .of_same rfl rfl
  · exact explained_setEntries found _ _

theorem distinct_of_checked {decks after : Decks} (accepted : checked decks = .ok after) :
    after = decks ∧ Name.Distinct decks.names := by
  unfold checked at accepted
  split at accepted
  · next none_clash =>
    cases accepted
    exact ⟨rfl, Name.clashes_eq_nil_iff.1 none_clash⟩
  · cases accepted

theorem checked_of_distinct {decks : Decks} (distinct : Name.Distinct decks.names) :
    checked decks = .ok decks := by
  unfold checked
  rw [Name.clashes_eq_nil_iff.2 distinct]

theorem explained_importDecks (payload : Payload) (merge : Bool) :
    Explained s.toTable (s.importDecks payload merge).1.toTable := by
  unfold importDecks
  split
  · exact .of_same rfl rfl
  · next members _ =>
    unfold importObject
    rcases Decks.repair members with e | imported
    · exact .of_same rfl rfl
    simp only [Outcome.of_ok, Outcome.andThen_ok]
    split
    all_goals
      rcases accepted : checked _ with e | decks
      · exact .of_same rfl rfl
      · obtain ⟨rfl, distinct⟩ := distinct_of_checked accepted
        exact explained_announce (s := { s with warnings := _ }) _ (.replaced _ distinct)
  · exact .of_same rfl rfl

end Store

end DrawPile
