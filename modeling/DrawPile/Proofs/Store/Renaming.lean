import DrawPile.Proofs.Store.Answer
import DrawPile.Proofs.Store.Entering

/-! Decks under other names. A deck gets its new name in its place and with its entries, unless
another deck shares the base name, and the way back is free: no other deck could share the base name
of the old one. To hide a deck leaves its base name as it was, so of all hiding and revealing only that
of a name with two marks can be refused. -/
namespace DrawPile

namespace Decks
variable {decks : Decks} {old new : Text}

/-- One deck has another name in its place, and all decks have their entries. -/
def Renamed (old new : Text) (decks after : Decks) : Prop :=
  ∃ (front back : Decks) (entries : List Text), decks = front ++ (old, entries) :: back ∧
    after = front ++ (new, entries) :: back

theorem renamed_rename (distinct : decks.names.Nodup) (present : old ∈ decks.names) (new : Text) :
    Renamed old new decks (decks.rename old new) := by
  obtain ⟨entries, found⟩ := Catalog.exists_of_mem_names present
  obtain ⟨front, back, rfl, absent, absent_after⟩ := Catalog.split_of_nodup distinct found
  exact ⟨front, back, entries, rfl, Store.rename_split new absent absent_after⟩

theorem rename_rename (fresh : new ∉ decks.names) :
    (decks.rename old new).rename new old = decks := by
  unfold rename
  rw [List.map_map]
  refine (List.map_congr_left fun d member => ?_).trans (List.map_id _)
  have different : d.1 ≠ new := Catalog.ne_of_not_mem fresh member
  by_cases same : d.1 = old
  · simp [← same]
  · simp [same, different]

namespace Renamed

theorem symm {after : Decks} (renamed : Renamed old new decks after) :
    Renamed new old after decks := by
  obtain ⟨front, back, entries, before, behind⟩ := renamed
  exact ⟨front, back, entries, behind, before⟩

theorem apart {after : Decks} (distinct : decks.names.Nodup)
    (renamed : Renamed old new decks after) :
    ∃ (front back : Decks) (entries : List Text), decks = front ++ (old, entries) :: back ∧
      after = front ++ (new, entries) :: back ∧ old ∉ front.names ∧ old ∉ back.names := by
  obtain ⟨front, back, entries, rfl, rfl⟩ := renamed
  exact ⟨front, back, entries, rfl, rfl, Catalog.absent_of_nodup distinct⟩

theorem eq_rename {after : Decks} (distinct : decks.names.Nodup)
    (renamed : Renamed old new decks after) :
    after = decks.rename old new := by
  obtain ⟨front, back, entries, rfl, rfl, absent, absent_after⟩ := renamed.apart distinct
  exact (Store.rename_split new absent absent_after).symm

theorem new_mem {after : Decks} (renamed : Renamed old new decks after) : new ∈ after.names := by
  obtain ⟨front, back, entries, -, rfl⟩ := renamed
  simp

theorem mem_names {after : Decks} {name : Text} (distinct : decks.names.Nodup)
    (renamed : Renamed old new decks after) (member : name ∈ after.names) (other : name ≠ new) :
    name ∈ decks.names ∧ name ≠ old := by
  obtain ⟨front, back, entries, rfl, rfl, absent, absent_after⟩ := renamed.apart distinct
  simp only [Catalog.names_append, Catalog.names_cons, List.mem_append, List.mem_cons, other,
    false_or] at member ⊢
  refine ⟨member.imp_right .inr, ?_⟩
  rintro rfl
  exact member.elim absent absent_after

end Renamed

end Decks

namespace Store
variable {s : Store} {name target : Text}

/-- Some deck other than the one to be renamed shares the base name. -/
def Contested (s : Store) (name target : Text) : Prop :=
  ∃ other ∈ s.names, other ≠ name ∧ Name.base other = Name.base target

instance : Decidable (s.Contested name target) :=
  inferInstanceAs (Decidable (∃ other ∈ s.names, other ≠ name ∧ Name.base other = Name.base target))

theorem conflicts_eq_nil_iff_not_contested :
    Name.conflicts target s.names (some name) = [] ↔ ¬ s.Contested name target := by
  simp [Name.conflicts_eq_nil_iff, Contested]

theorem not_contested_of_base_eq (distinct : Name.Distinct s.names) (present : name ∈ s.names)
    (same : Name.base target = Name.base name) : ¬ s.Contested name target := by
  rintro ⟨other, there, different, shared⟩
  exact different (List.inj_on_of_nodup_map distinct there present (shared.trans same))

/-- A deck has its new name, and nothing else has changed but what the audience does on hearing the
one notice of it. The name is the result, unless a listener raises an error. -/
structure Named (s : Store) (name target : Text) (o : Outcome Store Reply) : Prop where
  decks : Decks.Renamed name target s.decks o.1.decks
  settings : o.1.settings = s.settings
  source : o.1.source = s.source
  told : o.1.host = (s.freshRecord.host.announce ⟨.renamed, target⟩).1
  notices : o.1.host.happened = [⟨.renamed, target⟩]
  result : o.2 = (Audience.answer s.host.subscribed).map fun _ => .text target

/-- What comes of asking for a deck under another name. -/
inductive Renames (s : Store) (name target : Text) : Outcome Store Reply → Prop
  | same (kept : target = name) : Renames s name target (s.freshRecord, .ok (.text name))
  | refused (other : target ≠ name) (contested : s.Contested name target) :
      Renames s name target (s.freshRecord,
        .error (.nameConflict target (Name.conflicts target s.names (some name))))
  | named {o : Outcome Store Reply} (other : target ≠ name) (free : ¬ s.Contested name target)
      (named : Named s name target o) : Renames s name target o

def Refused (o : Outcome Store Reply) : Prop :=
  ∃ taken issues, o.2 = .error (.nameConflict taken issues)

theorem Named.not_refused {o : Outcome Store Reply} (named : Named s name target o) :
    ¬ Refused o := by
  rintro ⟨taken, issues, refused⟩
  rw [named.result, Audience.answer] at refused
  split at refused <;> cases refused

namespace Renames

theorem refused_iff {o : Outcome Store Reply} (renames : Renames s name target o) :
    Refused o ↔ target ≠ name ∧ s.Contested name target := by
  cases renames with
  | same kept => simp [Refused, kept]
  | refused other contested => exact ⟨fun _ => ⟨other, contested⟩, fun _ => ⟨_, _, rfl⟩⟩
  | named _ free named => exact ⟨fun refused => absurd refused named.not_refused,
      fun contested => absurd contested.2 free⟩

theorem unchanged_of_refused {o : Outcome Store Reply} (renames : Renames s name target o)
    (refused : Refused o) :
    o.1 = s.freshRecord := by
  cases renames with
  | same => rfl
  | refused => rfl
  | named _ _ named => exact absurd refused named.not_refused

theorem named_of_free {o : Outcome Store Reply} (renames : Renames s name target o)
    (other : target ≠ name) (free : ¬ s.Contested name target) : Named s name target o := by
  cases renames with
  | same kept => exact absurd kept other
  | refused _ contested => exact absurd contested free
  | named _ _ named => exact named

end Renames

theorem giveName_renames (distinct : Name.Distinct s.names) (present : name ∈ s.names)
    (other : target ≠ name) :
    Renames s name target ((s.freshRecord.giveName name target).map .text) := by
  unfold giveName
  split
  · next none_found =>
    rw [announce_map]
    refine .named other (conflicts_eq_nil_iff_not_contested.1 none_found) ?_
    exact
      { decks := Decks.renamed_rename distinct.nodup present target
        settings := rfl
        source := rfl
        told := rfl
        notices := Audience.announce_happened ..
        result := announce_snd .. }
  · next some_found =>
    refine .refused other ?_
    by_contra free
    exact some_found (conflicts_eq_nil_iff_not_contested.2 free)

theorem renameDeck_renames (distinct : Name.Distinct s.names) (present : name ∈ s.names)
    (newName : Text) :
    Renames s name (s.renameTarget name newName) (s.step (.renameDeck name newName)) := by
  obtain ⟨entries, found⟩ := Catalog.exists_of_mem_names present
  have there : s.freshRecord.decks.get? name = some entries := found
  have aim : s.freshRecord.renameTarget name newName = s.renameTarget name newName := rfl
  simp only [step, perform, renameDeck, withDeck_of_get? there, aim]
  split
  · next kept => exact .same kept
  · next other => exact giveName_renames distinct present other

def hidingTarget (name : Text) (hidden : Bool) : Text :=
  if hidden then Name.hide name else Name.base name

theorem hidingTarget_ne {hidden : Bool} (change : Name.isHidden name ≠ hidden) :
    hidingTarget name hidden ≠ name := by
  cases hidden with
  | true => exact Name.hide_ne name
  | false =>
    intro same
    have marked : Name.hide (Name.base name) = name := Name.hide_base (by simpa using change)
    exact Name.hide_ne name ((congrArg Name.hide same).symm.trans marked)

theorem setHidden_renames (distinct : Name.Distinct s.names) (present : name ∈ s.names)
    {hidden : Bool} (change : Name.isHidden name ≠ hidden) :
    Renames s name (hidingTarget name hidden) (s.step (.setHidden name hidden)) := by
  obtain ⟨entries, found⟩ := Catalog.exists_of_mem_names present
  have there : s.freshRecord.decks.get? name = some entries := found
  simp only [step, perform, setHidden, withDeck_of_get? there, if_neg change]
  exact giveName_renames distinct present (hidingTarget_ne change)

/-- The same decks, settings and random source; who listens may have changed. -/
structure SameContents (s t : Store) : Prop where
  decks : t.decks = s.decks
  settings : t.settings = s.settings
  source : t.source = s.source

namespace Named

theorem not_contested_back {o : Outcome Store Reply} (distinct : Name.Distinct s.names)
    (named : Named s name target o) :
    ¬ o.1.Contested target name := by
  rintro ⟨other, there, different, shared⟩
  obtain ⟨before, apart⟩ := named.decks.mem_names distinct.nodup there different
  exact apart (List.inj_on_of_nodup_map distinct before named.decks.symm.new_mem shared)

theorem fresh (free : ¬ s.Contested name target) (other : target ≠ name) : target ∉ s.names :=
  fun there => free ⟨target, there, other, rfl⟩

/-- Under its old name the deck is where it was, and so are all others. -/
theorem back {o : Outcome Store Reply} (distinct : Name.Distinct s.names)
    (distinct_after : Name.Distinct o.1.names) (fresh : target ∉ s.names)
    (named : Named s name target o) {o' : Outcome Store Reply}
    (renames : Renames o.1 target name o') :
    Named o.1 target name o' ∧ SameContents s o'.1 := by
  have other : name ≠ target := by
    rintro rfl
    exact fresh named.decks.symm.new_mem
  have returned := renames.named_of_free other (named.not_contested_back distinct)
  refine ⟨returned, ?_, returned.settings.trans named.settings,
    returned.source.trans named.source⟩
  rw [returned.decks.eq_rename distinct_after.nodup, named.decks.eq_rename distinct.nodup,
    Decks.rename_rename fresh]

end Named

theorem renameTarget_of_trimmed (trimmed : Text.trim name = name) (filled : name ≠ [])
    (alike : Name.isHidden target = Name.isHidden name) : s.renameTarget target name = name := by
  simp [renameTarget, nonBlankOr, trimmed, filled, alike]

/-- A deck gets the name it is to have, unless another deck shares the base name. If its old name is
one that can be asked for, the deck may be given it again, and then all decks are as they were. -/
theorem rename_reversible {s : Store} {name target : Text} (reachable : Reachable s)
    (present : name ∈ s.names) {newName : Text} (aim : s.renameTarget name newName = target) :
    Renames s name target (s.step (.renameDeck name newName)) ∧
      (Refused (s.step (.renameDeck name newName)) ↔ target ≠ name ∧ s.Contested name target) ∧
      (target ≠ name → ¬ s.Contested name target → Text.trim name = name → name ≠ [] →
        Name.isHidden target = Name.isHidden name →
        Named (s.run [.renameDeck name newName]) target name
            ((s.run [.renameDeck name newName]).step (.renameDeck target name)) ∧
          SameContents s (s.run [.renameDeck name newName, .renameDeck target name])) := by
  have renames := renameDeck_renames reachable.distinct present newName
  rw [aim] at renames
  refine ⟨renames, renames.refused_iff, ?_⟩
  intro other free trimmed filled alike
  have named := renames.named_of_free other free
  have distinct_after := (reachable.stepped (.renameDeck name newName)).distinct
  have returns := renameDeck_renames distinct_after named.decks.new_mem name
  rw [renameTarget_of_trimmed trimmed filled alike] at returns
  exact named.back reachable.distinct distinct_after (Named.fresh free other) returns

def crowded : Store := (underscored.step (.createDeck (some "b".toList))).1

theorem crowded_reachable : Reachable crowded := underscored_reachable.stepped _

theorem rename_reversible_of_crowded :
    Refused (crowded.step (.renameDeck "_a".toList " b ".toList)) ∧
      SameContents crowded (crowded.run
        [.renameDeck "_a".toList " c ".toList, .renameDeck "_c".toList "_a".toList]) := by
  have present : "_a".toList ∈ crowded.names := by decide
  have aim : crowded.renameTarget "_a".toList " c ".toList = "_c".toList := rfl
  have reversible := (rename_reversible crowded_reachable present aim).2.2
  refine ⟨(rename_reversible crowded_reachable present rfl).2.1.2 (by decide), ?_⟩
  exact (reversible (by decide) (by decide) (by decide) (by decide) (by decide)).2

/- A listener that at an event brings in another, who raises an error at the next. -/
def recruiting : Store :=
  crowded.run [.subscribe "r+".toList .refuse, .unsubscribe "r+".toList,
    .subscribe "r".toList .recruit]

theorem recruiting_reachable : Reachable recruiting :=
  ((crowded_reachable.stepped _).stepped _).stepped _

theorem rename_reversible_refused :
    Reachable recruiting ∧ "_a".toList ∈ recruiting.names ∧ Text.trim "_a".toList = "_a".toList ∧
      (recruiting.step (.renameDeck "_a".toList "c".toList)).2 = .ok (.text "_c".toList) ∧
      ((recruiting.run [.renameDeck "_a".toList "c".toList]).step
        (.renameDeck "_c".toList "_a".toList)).2 = .error (.listener "r+".toList) :=
  ⟨recruiting_reachable, by decide, rfl, rfl, rfl⟩

/-- What stands against a name without its mark: it has another mark, and the rest without both is
the base name of another deck. -/
theorem contested_base_iff (distinct : Name.Distinct s.names) (present : name ∈ s.names)
    (hidden : Name.isHidden name = true) :
    s.Contested name (Name.base name) ↔
      ∃ rest, name = Name.hide (Name.hide rest) ∧
        ∃ other ∈ s.names, other ≠ name ∧ Name.base other = rest := by
  constructor
  · intro contested
    cases marked : Name.isHidden (Name.base name) with
    | false =>
      exact absurd contested
        (not_contested_of_base_eq distinct present (Name.base_of_visible marked))
    | true =>
      refine ⟨Name.base (Name.base name), ?_, contested⟩
      rw [Name.hide_base marked, Name.hide_base hidden]
  · rintro ⟨rest, rfl, contested⟩
    exact contested

theorem run_toggleHidden (visible : Name.isHidden name = false) :
    s.run [.toggleHidden name, .toggleHidden (Name.hide name)] =
      s.run [.setHidden name true, .setHidden (Name.hide name) false] := by
  have hides : s.step (.toggleHidden name) = s.step (.setHidden name true) := by
    simp only [step, perform, toggleHidden, visible, Bool.not_false]
  simp only [run, List.foldl_cons, hides]
  rfl

theorem hiding_reversible (reachable : Reachable s) (present : name ∈ s.names)
    (visible : Name.isHidden name = false) :
    Named s name (Name.hide name) (s.step (.setHidden name true)) ∧
      Named (s.run [.setHidden name true]) (Name.hide name) name
        ((s.run [.setHidden name true]).step (.setHidden (Name.hide name) false)) ∧
      SameContents s (s.run [.setHidden name true, .setHidden (Name.hide name) false]) := by
  have free : ¬ s.Contested name (Name.hide name) :=
    not_contested_of_base_eq reachable.distinct present (Name.base_of_visible visible).symm
  have hides : Name.isHidden name ≠ true := by simp [visible]
  have named : Named s name (Name.hide name) (s.step (.setHidden name true)) :=
    (setHidden_renames reachable.distinct present hides).named_of_free (Name.hide_ne name) free
  have distinct_after := (reachable.stepped (.setHidden name true)).distinct
  have hidden : Name.isHidden (Name.hide name) ≠ false := nofun
  have reveals := setHidden_renames distinct_after named.decks.new_mem hidden
  have fresh := Named.fresh free (Name.hide_ne name)
  exact ⟨named, named.back reachable.distinct distinct_after fresh reveals⟩

/-- A visible deck can always be hidden, and when it is revealed, all decks are as they were. A hidden
deck is revealed unless under its second mark it has another deck's base name. -/
theorem hidden_and_revealed {s : Store} {name : Text} (reachable : Reachable s)
    (present : name ∈ s.names) :
    (Name.isHidden name = false →
      Named s name (Name.hide name) (s.step (.setHidden name true)) ∧
        Named (s.run [.setHidden name true]) (Name.hide name) name
          ((s.run [.setHidden name true]).step (.setHidden (Name.hide name) false)) ∧
        SameContents s (s.run [.setHidden name true, .setHidden (Name.hide name) false]) ∧
        SameContents s (s.run [.toggleHidden name, .toggleHidden (Name.hide name)])) ∧
    (Name.isHidden name = true →
      (Refused (s.step (.setHidden name false)) ↔
        ∃ rest, name = Name.hide (Name.hide rest) ∧
          ∃ other ∈ s.names, other ≠ name ∧ Name.base other = rest) ∧
      (Refused (s.step (.setHidden name false)) →
        (s.step (.setHidden name false)).1 = s.freshRecord) ∧
      (¬ Refused (s.step (.setHidden name false)) →
        Named s name (Name.base name) (s.step (.setHidden name false)))) := by
  constructor
  · intro visible
    obtain ⟨hides, reveals, same⟩ := hiding_reversible reachable present visible
    refine ⟨hides, reveals, same, ?_⟩
    rw [run_toggleHidden visible]
    exact same
  · intro hidden
    have change : Name.isHidden name ≠ false := by simp [hidden]
    have renames := setHidden_renames reachable.distinct present change
    have refused_iff : Refused (s.step (.setHidden name false)) ↔
        s.Contested name (Name.base name) :=
      renames.refused_iff.trans (and_iff_right (hidingTarget_ne change))
    refine ⟨refused_iff.trans (contested_base_iff reachable.distinct present hidden),
      renames.unchanged_of_refused, fun accepted => ?_⟩
    exact renames.named_of_free (hidingTarget_ne change) (mt refused_iff.2 accepted)

theorem hidden_and_revealed_of_crowded :
    SameContents crowded (crowded.run [.toggleHidden "b".toList, .toggleHidden "_b".toList]) ∧
      Refused (crowded.step (.setHidden "__b".toList false)) := by
  have there : "b".toList ∈ crowded.names := by decide
  have marked : "__b".toList ∈ crowded.names := by decide
  refine ⟨((hidden_and_revealed crowded_reachable there).1 rfl).2.2.2, ?_⟩
  refine ((hidden_and_revealed crowded_reachable marked).2 rfl).1.2 ?_
  exact ⟨"b".toList, rfl, "b".toList, there, by decide, rfl⟩

theorem hidden_and_revealed_refused :
    Reachable recruiting ∧ "b".toList ∈ recruiting.names ∧
      (recruiting.step (.setHidden "b".toList true)).2 = .ok (.text "_b".toList) ∧
      ((recruiting.run [.setHidden "b".toList true]).step
        (.setHidden "_b".toList false)).2 = .error (.listener "r+".toList) :=
  ⟨recruiting_reachable, by decide, rfl, rfl⟩

end Store

end DrawPile
