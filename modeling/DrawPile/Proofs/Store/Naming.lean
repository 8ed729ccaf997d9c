import DrawPile.Proofs.Name.Usable
import DrawPile.Proofs.Store.Creation
import DrawPile.Proofs.Store.Failure
import DrawPile.Proofs.Store.Settings

/-! Names that a store makes itself. New decks and renamed ones get trimmed names that are not empty,
and to hide a deck keeps its name usable; but to reveal one only takes the mark away, and what stood
behind it may begin with a blank, or be nothing. No name gets a blank at its end, and only a name that
was revealed is not usable. -/
namespace DrawPile

theorem Decks.mem_names_rename {decks : Decks} {old new name : Text}
    (member : name ∈ (decks.rename old new).names) : name ∈ decks.names ∨ name = new := by
  simp only [rename, Catalog.names, List.map_map, List.mem_map, Function.comp_apply] at member
  obtain ⟨d, there, same⟩ := member
  split at same
  · exact .inr same.symm
  · exact .inl (same ▸ List.mem_map_of_mem there)

namespace Store
variable {s : Store} {α : Type} {coined : Text → Prop}

/-- Operations that bring in nothing from outside: neither deck data nor settings. -/
def Operation.homemade : Operation → Bool
  | .importDecks _ _ => false
  | .assign _ _ => false
  | _ => true

/-- To ask for a hidden deck without its mark. -/
def Operation.Reveals (op : Operation) (fresh : Text) : Prop :=
  op = .setHidden (Name.hide fresh) false ∨ op = .toggleHidden (Name.hide fresh)

inductive Coined (s : Store) : Operation → Text → Prop
  | created (given : Option Text) (k : Nat) :
      Coined s (.createDeck given) (numbered (s.wantedName given) k)
  | renamed (name newName : Text) :
      Coined s (.renameDeck name newName) (s.renameTarget name newName)
  | hidden {op : Operation} {name : Text} (present : name ∈ s.names)
      (asked : op = .setHidden name true ∨ op = .toggleHidden name) : Coined s op (Name.hide name)
  | revealed {op : Operation} {fresh : Text} (present : Name.hide fresh ∈ s.names)
      (asked : op.Reveals fresh) : Coined s op fresh

theorem Coined.of_freshRecord {fresh : Text} {op : Operation}
    (coined : Coined s.freshRecord op fresh) : Coined s op fresh := by
  cases coined with
  | created given k => exact .created given k
  | renamed name newName => exact .renamed name newName
  | hidden present asked => exact .hidden present asked
  | revealed present asked => exact .revealed present asked

/-- All names afterwards were there before or have been coined. -/
def Brings (s : Store) (coined : Text → Prop) (o : Outcome Store α) : Prop :=
  ∀ n ∈ o.1.names, n ∈ s.names ∨ coined n

namespace Brings

theorem of_subset {o : Outcome Store α} (within : o.1.names ⊆ s.names) : Brings s coined o :=
  fun _ member => .inl (within member)

theorem map {β : Type} {o : Outcome Store α} (brings : Brings s coined o) (f : α → β) :
    Brings s coined (o.map f) := by
  unfold Brings
  rw [Outcome.map_fst]
  exact brings

theorem withDeck {name : Text} {f : List Text → Outcome Store α}
    (each : ∀ entries, s.decks.get? name = some entries → Brings s coined (f entries)) :
    Brings s coined (s.withDeck name f) := by
  unfold Store.withDeck require
  cases found : s.decks.get? name with
  | none => exact of_subset (List.Subset.refl _)
  | some entries => exact each entries found

theorem setEntries {name : Text} {entries : List Text} (found : s.decks.get? name = some entries)
    (after : List Text) (result : α) : Brings s coined (s.setEntries name after result) := by
  have same : (s.setEntries name after result).1.names = s.names :=
    Catalog.names_put_of_mem (Catalog.mem_names_of_get? found)
  exact of_subset (same ▸ List.Subset.refl _)

theorem withEntry {name : Text} {index : Int} {f : List Text → Nat → Outcome Store α}
    (each : ∀ entries place, s.decks.get? name = some entries → Brings s coined (f entries place)) :
    Brings s coined (s.withEntry name index f) := by
  refine withDeck fun entries found => ?_
  split
  · exact each entries _ found
  · exact of_subset (List.Subset.refl _)

theorem giveName {name target : Text} (named : coined target) :
    Brings s coined (s.giveName name target) := by
  unfold Store.giveName
  split
  · intro n member
    rcases Decks.mem_names_rename member with old | rfl
    · exact .inl old
    · exact .inr named
  · exact of_subset (List.Subset.refl _)

theorem setHidden {name : Text} {op : Operation} {hidden : Bool}
    (asked : op = .setHidden name hidden ∨ op = .toggleHidden name) :
    Brings s (Coined s op) (s.setHidden name hidden) := by
  refine withDeck fun entries found => ?_
  have present : name ∈ s.names := Catalog.mem_names_of_get? found
  split
  · exact of_subset (List.Subset.refl _)
  · next change =>
    apply giveName
    cases hidden with
    | true => exact .hidden present asked
    | false =>
      have marked : Name.hide (Name.base name) = name := Name.hide_base (by simpa using change)
      have reveals : op.Reveals (Name.base name) := by
        rw [Operation.Reveals, marked]
        exact asked
      exact .revealed (marked.symm ▸ present) reveals

theorem resolves {o : Outcome Store α} (consumes : Consumes s.toTable o.1.toTable) :
    Brings s coined o := by
  obtain ⟨removals, -, -, taken⟩ := consumes
  have same : o.1.names = s.names := taken.names
  exact of_subset (same ▸ List.Subset.refl _)

end Brings

theorem perform_brings {op : Operation} (s : Store) (homemade : op.homemade = true) :
    Brings s (Coined s op) (s.perform op) := by
  have kept : s.names ⊆ s.names := List.Subset.refl _
  cases op with
  | assign | importDecks => cases homemade
  | names | contains | search | rawEntries | entries | exportDecks | subscribe | unsubscribe =>
    exact .of_subset kept
  | createDeck given =>
    refine .map (fun n member => ?_) _
    have appended : n ∈ s.names ++ [freeName s.names (s.wantedName given)] := by
      simpa [names, createDeck, announce, wantedName] using member
    rcases List.mem_append.1 appended with old | new
    · exact .inl old
    · obtain ⟨k, -, chosen, -⟩ := exists_firstFree s.names (s.wantedName given)
      rw [List.mem_singleton.1 new, chosen]
      exact .inr (.created given k)
  | deleteDeck name =>
    refine (Brings.withDeck fun entries _ => .of_subset ?_).map _
    exact (List.filter_sublist.map Prod.fst).subset
  | clear =>
    have gone : s.clear.1.names = [] := by rw [names, clear_decks, Catalog.names_nil]
    exact (Brings.of_subset (gone ▸ List.nil_subset _)).map _
  | renameDeck name newName =>
    refine (Brings.withDeck fun entries _ => ?_).map _
    simp only
    split
    · exact .of_subset kept
    · exact .giveName (.renamed name newName)
  | setHidden name hidden => exact (Brings.setHidden (.inl rfl)).map _
  | toggleHidden name => exact (Brings.setHidden (.inr rfl)).map _
  | moveDeck name offset =>
    refine (Brings.withDeck fun entries _ => ?_).map _
    simp only
    split
    · exact .of_subset kept
    · exact .of_subset ((exchange_perm ..).map Prod.fst).symm.subset
  | addEntry name content weight =>
    exact (Brings.withDeck fun _ found => .setEntries found _ _).map _
  | updateEntry name index content weight =>
    exact (Brings.withEntry fun _ _ found => .setEntries found _ _).map _
  | removeEntry name index =>
    exact (Brings.withEntry fun _ _ found => .setEntries found _ _).map _
  | moveEntry name index offset =>
    refine (Brings.withEntry fun _ _ found => ?_).map _
    split
    · exact .of_subset kept
    · exact .setEntries found _ _
  | draw name => exact (Brings.resolves (draw_consumes s name)).map _
  | resolve text => exact (Brings.resolves (resolve_consumes s text)).map _
  | distribution name =>
    refine (Brings.withDeck fun entries _ => ?_).map _
    rcases DrawPile.distribution entries s.settings.labelLength s.source with ⟨source, result⟩
    exact .of_subset kept

theorem step_brings {op : Operation} (s : Store) (homemade : op.homemade = true) :
    Brings s (Coined s op) (s.step op) :=
  fun n member => (perform_brings s.freshRecord homemade n member).imp_right Coined.of_freshRecord

/- What makes all names that are coined usable: the names that stand in for blank ones are, and the
names that are there would be behind the mark. -/
structure Wholesome (s : Store) : Prop where
  default : Name.Usable s.settings.defaultDeckName
  untitled : Name.Usable s.settings.untitledDeckName
  names : ∀ name ∈ s.names, Name.Usable (Name.hide name)

namespace Wholesome

theorem renameTarget (wholesome : Wholesome s) (name newName : Text) :
    Name.Usable (s.renameTarget name newName) := by
  have asked := usable_nonBlankOr wholesome.untitled newName
  unfold Store.renameTarget
  simp only
  split
  · exact asked.hide
  · exact asked

theorem usable_of_coined {fresh : Text} {op : Operation} (wholesome : Wholesome s)
    (coined : Coined s op fresh) :
    Name.Usable (Name.hide fresh) ∧ (Name.Usable fresh ∨ op.Reveals fresh) := by
  cases coined with
  | created given k =>
    have usable := usable_numbered (usable_nonBlankOr wholesome.default (given.getD [])) k
    exact ⟨usable.hide, .inl usable⟩
  | renamed name newName =>
    have usable := wholesome.renameTarget name newName
    exact ⟨usable.hide, .inl usable⟩
  | hidden present =>
    have usable := wholesome.names _ present
    exact ⟨usable.hide, .inl usable⟩
  | revealed present reveals =>
    exact ⟨.of_hide rfl (wholesome.names _ present), .inr reveals⟩

theorem step {op : Operation} (wholesome : Wholesome s) (homemade : op.homemade = true) :
    Wholesome (s.step op).1 := by
  have same : (s.step op).1.settings = s.settings := by
    apply step_settings
    rintro field value rfl
    cases homemade
  refine ⟨same ▸ wholesome.default, same ▸ wholesome.untitled, ?_⟩
  intro name member
  rcases step_brings s homemade name member with old | new
  · exact wholesome.names name old
  · exact (wholesome.usable_of_coined new).1

theorem run {ops : List Operation} (wholesome : Wholesome s)
    (homemade : ∀ op ∈ ops, op.homemade = true) : Wholesome (s.run ops) := by
  induction ops generalizing s with
  | nil => exact wholesome
  | cons op ops ih =>
    obtain ⟨first, rest⟩ := List.forall_mem_cons.1 homemade
    exact ih (wholesome.step first) rest

end Wholesome

/-- A name that is not usable at the end of a run was revealed in it. -/
theorem run_usable_or_revealed {ops : List Operation} (wholesome : Wholesome s)
    (usable : ∀ name ∈ s.names, Name.Usable name) (homemade : ∀ op ∈ ops, op.homemade = true) :
    ∀ name ∈ (s.run ops).names, Name.Usable name ∨ ∃ op ∈ ops, op.Reveals name := by
  -- From the end: the last operation coined the name, or it was there before.
  induction ops using List.reverseRecOn with
  | nil => exact fun name member => .inl (usable name member)
  | append_singleton ops op ih =>
    intro name member
    have last : s.run (ops ++ [op]) = ((s.run ops).step op).1 := by
      rw [Store.run, List.foldl_append]
      rfl
    have homemade_before : ∀ op ∈ ops, op.homemade = true := fun op member =>
      homemade op (List.mem_append_left _ member)
    have homemade_last := homemade op (List.mem_append_right _ (List.mem_singleton_self op))
    rw [last] at member
    rcases step_brings (s.run ops) homemade_last name member with old | new
    · refine (ih homemade_before name old).imp_right ?_
      rintro ⟨earlier, present, reveals⟩
      exact ⟨earlier, List.mem_append_left _ present, reveals⟩
    · refine ((wholesome.run homemade_before).usable_of_coined new).2.imp_right fun reveals => ?_
      exact ⟨op, List.mem_append_right _ (List.mem_singleton_self op), reveals⟩

/-- In a store that began empty and with the usual settings no name has a blank at its end, and every
hidden one is usable. A name that is not usable was revealed on the way, and where only usable names
are, all are. A token can be written for a usable name, unless a character that ends tokens or changes
their form is in the way, and none asks for a name that is not, the empty one apart. -/
theorem run_names_usable {s : Store} (empty : s.decks = []) (usual : s.settings = {})
    {ops : List Operation} (homemade : ∀ op ∈ ops, op.homemade = true) :
    (∀ name ∈ (s.run ops).names, Name.Usable (Name.hide name)) ∧
    (∀ name ∈ (s.run ops).names, Name.isHidden name = true → Name.Usable name) ∧
    (∀ name ∈ (s.run ops).names, Name.Usable name ∨ ∃ op ∈ ops, op.Reveals name) ∧
    ((∀ op ∈ ops, ∀ name, op.Reveals name → Name.Usable name) →
      ∀ name ∈ (s.run ops).names, Name.Usable name) ∧
    (∀ name, Name.Usable name → '\x7d' ∉ name → '\n' ∉ name → name.head? ≠ some '%' →
      Reference.split? .taking ('\x7b' :: name ++ ['\x7d']) = some ⟨[], name, []⟩) ∧
    (∀ form text split, Reference.split? form text = some split →
      split.name = [] ∨ Name.Usable split.name) := by
  have nothing : s.names = [] := by rw [names, empty, Catalog.names_nil]
  have wholesome : Wholesome s := by
    refine ⟨?_, ?_, ?_⟩
    · rw [usual]
      decide
    · rw [usual]
      decide
    · rw [nothing]
      exact List.forall_mem_nil _
  have usable : ∀ name ∈ s.names, Name.Usable name := by
    rw [nothing]
    exact List.forall_mem_nil _
  have behind := (wholesome.run homemade).names
  have revealed := run_usable_or_revealed wholesome usable homemade
  refine ⟨behind, ?_, revealed, ?_, ?_, ?_⟩
  · intro name member hidden
    exact .of_hide hidden (behind name member)
  · intro only name member
    rcases revealed name member with usable | ⟨op, present, reveals⟩
    · exact usable
    · exact only op present name reveals
  · intro name usable open_still one_line unmarked
    exact Name.split?_of_usable usable open_still one_line unmarked
  · intro form text split found
    exact Name.usable_of_split? found

def bare : Store where
  decks := []
  source := .cycle #[]
  host := {}

theorem run_names_usable_of_bare :
    bare.decks = [] ∧ bare.settings = {} ∧
      ∀ name ∈ (bare.run [.createDeck (some " _ x ".toList), .renameDeck "_ x".toList " ".toList,
        .toggleHidden "_Untitled Deck".toList]).names, Name.Usable name := by
  refine ⟨rfl, rfl, (run_names_usable rfl rfl (by decide)).2.2.2.1 ?_⟩
  intro op member name reveals
  simp only [List.mem_cons, List.not_mem_nil, or_false] at member
  rcases member with rfl | rfl | rfl <;> rcases reveals with same | same <;> cases same
  decide

/-- The blank behind the mark comes to the front, and behind a mark alone there is nothing. -/
theorem revealed_not_usable :
    (bare.run [.createDeck (some "_ x".toList), .setHidden "_ x".toList false]).names =
        [" x".toList] ∧
      ¬ Name.Usable " x".toList ∧
      (bare.run [.createDeck (some "_".toList), .toggleHidden "_".toList]).names = [[]] ∧
      ¬ Name.Usable [] := by
  decide

end Store

end DrawPile
