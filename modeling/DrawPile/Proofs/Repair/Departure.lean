import DrawPile.Proofs.Catalog
import DrawPile.Proofs.Repair
import Mathlib.Data.List.Nodup
import Mathlib.Data.Set.List

/-! Issues and repairs. Deck data has a schema, and an issue is found for each value in it that the
schema does not allow, and for nothing else: a deck that is no list, or an entry of a list that is no
text. Repair changes these and no others. -/
namespace DrawPile

/-- A name in an object, or a place in a list. -/
inductive Step
  | name (name : Text)
  | place (index : Nat)

/-- Schemas that ask for a type, and of whatever is inside for a schema again. -/
inductive Schema
  | text
  | list (items : Schema)
  | object (members : Schema)

namespace Schema

def decks : Schema := .object (.list .text)

def fits : Schema → Json → Bool
  | .text, .text _ => true
  | .list _, .list _ => true
  | .object _, .object _ => true
  | _, _ => false

/-- The values that a schema does not allow, each with the way to it. Nothing is asked of what is
inside a value of a wrong type. -/
inductive Breach : Schema → Json → List Step → Json → Prop
  | here {schema : Schema} {v : Json} (wrong : schema.fits v = false) : Breach schema v [] v
  | item {schema : Schema} {items : List Json} {index : Nat} {v found : Json} {way : List Step}
      (there : items[index]? = some v) (inside : Breach schema v way found) :
      Breach (.list schema) (.list items) (.place index :: way) found
  | member {schema : Schema} {members : Catalog Json} {name : Text} {v found : Json}
      {way : List Step} (there : (name, v) ∈ members) (inside : Breach schema v way found) :
      Breach (.object schema) (.object members) (.name name :: way) found

theorem fits_text_eq_false_iff {v : Json} : text.fits v = false ↔ ∀ t, v ≠ .text t := by
  cases v <;> simp [fits]

theorem fits_list_eq_false_iff {schema : Schema} {v : Json} :
    (list schema).fits v = false ↔ ∀ items, v ≠ .list items := by
  cases v <;> simp [fits]

end Schema

namespace Issue

/-- What can be wrong with the decks of an object: a deck that is no list, or an entry in a list that
is no text. -/
inductive Departs (members : Catalog Json) : Issue → Prop
  | deck {name : Text} {v : Json} (there : (name, v) ∈ members)
      (no_list : ∀ items, v ≠ .list items) : Departs members (.notList name v)
  | entry {name : Text} {items : List Json} {index : Nat} {v : Json}
      (there : (name, .list items) ∈ members) (within : items[index]? = some v)
      (no_text : ∀ t, v ≠ .text t) : Departs members (.notText name index v)

def ofItem? (deck : Text) : Json × Nat → Option Issue
  | (.text _, _) => none
  | (v, index) => some (.notText deck index v)

theorem ofItem?_eq_some_iff {deck : Text} {v : Json} {index : Nat} {issue : Issue} :
    ofItem? deck (v, index) = some issue ↔
      (∀ t, v ≠ .text t) ∧ issue = .notText deck index v := by
  cases v <;> simp [ofItem?, eq_comm]

theorem ofEntries_eq (deck : Text) (start : Nat) (items : List Json) :
    ofEntries deck start items = (items.zipIdx start).filterMap (ofItem? deck) := by
  induction items generalizing start with
  | nil => rfl
  | cons item items ih => cases item <;> simp [ofEntries, List.filterMap_cons, ofItem?, ih]

theorem mem_ofEntries_iff {deck : Text} {items : List Json} {issue : Issue} :
    issue ∈ ofEntries deck 0 items ↔
      ∃ index v, items[index]? = some v ∧ (∀ t, v ≠ .text t) ∧ issue = .notText deck index v := by
  rw [ofEntries_eq, List.mem_filterMap]
  constructor
  · rintro ⟨⟨v, index⟩, there, found⟩
    exact ⟨index, v, List.mem_zipIdx_iff_getElem?.1 there, ofItem?_eq_some_iff.1 found⟩
  · rintro ⟨index, v, there, found⟩
    exact ⟨(v, index), List.mem_zipIdx_iff_getElem?.2 there, ofItem?_eq_some_iff.2 found⟩

theorem nodup_ofEntries (deck : Text) (items : List Json) : (ofEntries deck 0 items).Nodup := by
  rw [ofEntries_eq]
  refine List.Nodup.filterMap ?_ (.of_map Prod.snd ?_)
  · rintro ⟨v, index⟩ ⟨v', index'⟩ issue found found'
    have same := (ofItem?_eq_some_iff.1 found).2.symm.trans (ofItem?_eq_some_iff.1 found').2
    cases same
    rfl
  · rw [List.zipIdx_map_snd]
    exact List.nodup_range'

/-- Where the value that an issue is about stands, and the value. -/
def site? : Issue → Option (List Step × Json)
  | .notObject => none
  | .notList deck found => some ([.name deck], found)
  | .notText deck index found => some ([.name deck, .place index], found)

theorem breach_iff {members : Catalog Json} {way : List Step} {found : Json} :
    Schema.decks.Breach (.object members) way found ↔
      ∃ issue, Departs members issue ∧ issue.site? = some (way, found) := by
  constructor
  · intro breach
    cases breach with
    | here wrong => cases wrong
    | member there inside =>
      cases inside with
      | here wrong => exact ⟨_, .deck there (Schema.fits_list_eq_false_iff.1 wrong), rfl⟩
      | item within inside =>
        cases inside with
        | here wrong => exact ⟨_, .entry there within (Schema.fits_text_eq_false_iff.1 wrong), rfl⟩
  · rintro ⟨issue, ⟨there, no_list⟩ | ⟨there, within, no_text⟩, site⟩
    · cases site
      exact .member there (.here (Schema.fits_list_eq_false_iff.2 no_list))
    · cases site
      exact .member there (.item within (.here (Schema.fits_text_eq_false_iff.2 no_text)))

theorem ofDeck_of_no_list {name : Text} {v : Json} (no_list : ∀ items, v ≠ .list items) :
    ofDeck name v = [.notList name v] := by
  cases v with
  | list items => exact absurd rfl (no_list items)
  | _ => rfl

theorem mem_ofDeck_iff {name : Text} {v : Json} {issue : Issue} :
    issue ∈ ofDeck name v ↔ Departs [(name, v)] issue := by
  by_cases lists : ∃ items, v = .list items
  · obtain ⟨items, rfl⟩ := lists
    rw [ofDeck, mem_ofEntries_iff]
    constructor
    · rintro ⟨index, v, within, no_text, rfl⟩
      exact .entry List.mem_cons_self within no_text
    · rintro (⟨there, no_list⟩ | ⟨there, within, no_text⟩)
      · cases List.mem_singleton.1 there
        exact absurd rfl (no_list items)
      · cases List.mem_singleton.1 there
        exact ⟨_, _, within, no_text, rfl⟩
  · have no_list : ∀ items, v ≠ .list items := fun items same => lists ⟨items, same⟩
    rw [ofDeck_of_no_list no_list, List.mem_singleton]
    constructor
    · rintro rfl
      exact .deck List.mem_cons_self no_list
    · rintro (⟨there, -⟩ | ⟨there, -, -⟩)
      · cases List.mem_singleton.1 there
        rfl
      · cases List.mem_singleton.1 there
        exact absurd rfl (no_list _)

theorem nodup_ofDeck (name : Text) (v : Json) : (ofDeck name v).Nodup := by
  by_cases lists : ∃ items, v = .list items
  · obtain ⟨items, rfl⟩ := lists
    exact nodup_ofEntries name items
  · rw [ofDeck_of_no_list fun items same => lists ⟨items, same⟩]
    exact List.nodup_singleton _

def deck? : Issue → Option Text
  | .notObject => none
  | .notList deck _ => some deck
  | .notText deck _ _ => some deck

theorem deck?_of_mem_ofDeck {name : Text} {v : Json} {issue : Issue}
    (found : issue ∈ ofDeck name v) : issue.deck? = some name := by
  cases mem_ofDeck_iff.1 found with
  | deck there =>
    cases List.mem_singleton.1 there
    rfl
  | entry there =>
    cases List.mem_singleton.1 there
    rfl

theorem departs_iff_exists {members : Catalog Json} {issue : Issue} :
    Departs members issue ↔ ∃ m ∈ members, Departs [m] issue := by
  constructor
  · rintro (⟨there, no_list⟩ | ⟨there, within, no_text⟩)
    · exact ⟨_, there, .deck List.mem_cons_self no_list⟩
    · exact ⟨_, there, .entry List.mem_cons_self within no_text⟩
  · rintro ⟨m, member, ⟨there, no_list⟩ | ⟨there, within, no_text⟩⟩
    · exact .deck (List.mem_singleton.1 there ▸ member) no_list
    · exact .entry (List.mem_singleton.1 there ▸ member) within no_text

theorem mem_all_object_iff {members : Catalog Json} {issue : Issue} :
    issue ∈ all (.object members) ↔ Departs members issue := by
  rw [all, List.mem_mergeSort, List.mem_flatMap, departs_iff_exists]
  simp only [mem_ofDeck_iff]

theorem nodup_all_object {members : Catalog Json} (distinct : members.names.Nodup) :
    (all (.object members)).Nodup := by
  rw [all, (List.mergeSort_perm ..).nodup_iff, List.nodup_flatMap]
  refine ⟨fun m _ => nodup_ofDeck m.1 m.2, ?_⟩
  refine (List.pairwise_map.1 distinct).imp fun {m m'} different => ?_
  -- An issue is about one deck, so decks of different names have none in common.
  refine List.disjoint_left.2 fun issue found found' => different ?_
  exact Option.some.inj ((deck?_of_mem_ofDeck found).symm.trans (deck?_of_mem_ofDeck found'))

theorem all_object_eq_nil_iff {members : Catalog Json} :
    all (.object members) = [] ↔ ∀ issue, ¬ Departs members issue := by
  rw [List.eq_nil_iff_forall_not_mem]
  simp only [mem_all_object_iff]

end Issue

namespace Decks

/-- What a deck can become of: nothing gives no entries, a list keeps its length and its texts in
their places, and any other value gives one entry. -/
inductive Mended : Json → List Text → Prop
  | null : Mended .null []
  | list {items : List Json} {entries : List Text} (length : entries.length = items.length)
      (kept : ∀ (index : Nat) (t : Text), items[index]? = some (.text t) → entries[index]? = some t) :
      Mended (.list items) entries
  | single {v : Json} (filled : v ≠ .null) (no_list : ∀ items, v ≠ .list items) (entry : Text) :
      Mended v [entry]

theorem repairDeck_mended {v : Json} {entries : List Text} (repaired : repairDeck v = .ok entries) :
    Mended v entries := by
  have alone {w : Json} (filled : w ≠ .null) (no_list : ∀ items, w ≠ .list items)
      (single : (entryText w).map ([·]) = .ok entries) : Mended w entries := by
    cases made : entryText w with
    | error e =>
      rw [made] at single
      cases single
    | ok entry =>
      rw [made] at single
      cases single
      exact .single filled no_list entry
  cases v with
  | null =>
    cases repaired
    exact .null
  | list items =>
    refine .list (forall₂_of_mapM repaired).length_eq.symm fun index t there => ?_
    obtain ⟨entry, stands, made⟩ := getElem?_of_mapM repaired there
    cases made
    exact stands
  | _ => exact alone (by simp) (by simp) repaired

theorem repair_mended {data : Catalog Json} {decks : Decks} (repaired : repair data = .ok decks) :
    List.Forall₂ (fun m deck => deck.1 = m.1 ∧ Mended m.2 deck.2) data decks :=
  (repair_ok_iff.1 repaired).imp fun _ _ pair => ⟨pair.1, repairDeck_mended pair.2⟩

theorem texts_of_right {items : List Json} {name : Text}
    (right : ∀ issue, ¬ Issue.Departs [(name, .list items)] issue) :
    ∃ entries : List Text, items = entries.map .text := by
  have texts : items ∈ Set.range (List.map Json.text) := by
    rw [Set.range_list_map]
    intro item member
    obtain ⟨index, within⟩ := List.getElem?_of_mem member
    by_contra no_text
    exact right _ (.entry List.mem_cons_self within fun t same => no_text ⟨t, same.symm⟩)
  obtain ⟨entries, same⟩ := texts
  exact ⟨entries, same.symm⟩

/-- Data without a departure are decks written as JSON. -/
theorem members_of_right {data : Catalog Json} (right : ∀ issue, ¬ Issue.Departs data issue) :
    ∃ decks : Decks, data = decks.members := by
  induction data with
  | nil => exact ⟨[], rfl⟩
  | cons m data ih =>
    obtain ⟨name, v⟩ := m
    have first : ∀ issue, ¬ Issue.Departs [(name, v)] issue := fun issue departs =>
      right issue (Issue.departs_iff_exists.2 ⟨_, List.mem_cons_self, departs⟩)
    have others : ∀ issue, ¬ Issue.Departs data issue := by
      intro issue departs
      obtain ⟨m, member, departs⟩ := Issue.departs_iff_exists.1 departs
      exact right issue (Issue.departs_iff_exists.2 ⟨m, List.mem_cons_of_mem _ member, departs⟩)
    obtain ⟨items, rfl⟩ : ∃ items, v = .list items := by
      by_contra no_list
      exact first _ (.deck List.mem_cons_self fun items same => no_list ⟨items, same⟩)
    obtain ⟨entries, rfl⟩ := texts_of_right first
    obtain ⟨decks, rfl⟩ := ih others
    exact ⟨(name, entries) :: decks, rfl⟩

/-- Repair gives the same data exactly if there is nothing to report. -/
theorem members_repair_iff {data : Catalog Json} {decks : Decks}
    (repaired : repair data = .ok decks) :
    decks.members = data ↔ ∀ issue, ¬ Issue.Departs data issue := by
  constructor
  · rintro rfl
    have silent := repairWarnings_members decks
    rwa [repairWarnings, List.map_eq_nil_iff, Issue.all_object_eq_nil_iff] at silent
  · intro right
    obtain ⟨kept, rfl⟩ := members_of_right right
    rw [repair_members] at repaired
    cases repaired
    rfl

/-- Data in which every integer can be written are repaired, and those with another integer anywhere
in them are not. An issue is found for each departure from the schema, once, and for nothing else.
Repair keeps the names and what is right in each deck; it changes something exactly if it warns, and
what it gives is without issue and repaired to itself. -/
theorem repair_reports_changes {data : Catalog Json} (distinct : data.names.Nodup) :
    (repair data = .error .unwritable ↔
        ∃ n, Json.Holds n (.object data) ∧ Text.isWritable n = false) ∧
      ((∀ n, Json.Holds n (.object data) → Text.isWritable n = true) →
        ∃ decks, repair data = .ok decks ∧
          (∀ issue, issue ∈ Issue.all (.object data) ↔ Issue.Departs data issue) ∧
          (∀ way found, Schema.decks.Breach (.object data) way found ↔
            ∃ issue ∈ Issue.all (.object data), issue.site? = some (way, found)) ∧
          (Issue.all (.object data)).Nodup ∧
          List.Forall₂ (fun m deck => deck.1 = m.1 ∧ Mended m.2 deck.2) data decks ∧
          (decks.toJson = .object data ↔ repairWarnings data = []) ∧
          Issue.all decks.toJson = [] ∧
          ∃ again, decks.toJson = .object again ∧ repair again = .ok decks ∧
            repairWarnings again = []) := by
  refine ⟨?_, fun able => ?_⟩
  · rw [← (repair_hinges data).error_iff, ← Bool.not_eq_true, Json.writable_iff]
    simp
  · obtain ⟨decks, repaired⟩ := (repair_hinges data).ok_iff.1 (Json.writable_iff.2 able)
    have silent := repairWarnings_members decks
    refine ⟨decks, repaired, fun _ => Issue.mem_all_object_iff, ?_, Issue.nodup_all_object distinct,
      repair_mended repaired, ?_, ?_, _, toJson_eq decks, repair_members decks, silent⟩
    · intro way found
      simp only [Issue.mem_all_object_iff]
      exact Issue.breach_iff
    · rw [toJson_eq, Json.object.injEq, members_repair_iff repaired, repairWarnings,
        List.map_eq_nil_iff, Issue.all_object_eq_nil_iff]
    · rwa [repairWarnings, List.map_eq_nil_iff] at silent

def muddled : Catalog Json :=
  [("a".toList, .list [.int 3, .text "x".toList, .list [.null]]), ("b".toList, .null),
    ([], .text "y".toList)]

theorem repair_reports_changes_of_muddled :
    muddled.names.Nodup ∧ (∀ n, Json.Holds n (.object muddled) → Text.isWritable n = true) ∧
      repair muddled = .ok [("a".toList, ["3".toList, "x".toList, "[null]".toList]),
        ("b".toList, []), ([], ["y".toList])] ∧
      .notText "a".toList 2 (.list [.null]) ∈ Issue.all (.object muddled) ∧
      .notText "a".toList 1 (.text "x".toList) ∉ Issue.all (.object muddled) ∧
      repairWarnings muddled ≠ [] := by
  have distinct : muddled.names.Nodup := by decide
  have able : ∀ n, Json.Holds n (.object muddled) → Text.isWritable n = true :=
    Json.writable_iff.1 (by decide)
  obtain ⟨-, repairs⟩ := repair_reports_changes distinct
  obtain ⟨decks, repaired, issues, -, -, -, changes, -, -⟩ := repairs able
  have departs : Issue.Departs muddled (.notText "a".toList 2 (.list [.null])) :=
    .entry List.mem_cons_self rfl (by simp)
  have found := (issues _).2 departs
  refine ⟨distinct, able, rfl, found, fun reported => ?_, fun silent => ?_⟩
  · cases (issues _).1 reported with
    | entry _ _ no_text => exact no_text _ rfl
  · rw [repairWarnings, List.map_eq_nil_iff] at silent
    rw [silent] at found
    cases found

/- The least integer with a digit too many. -/
def colossal : Int := Nat.pow 10 Text.maxDigits

theorem not_isWritable_pow {n : Nat} (long : Text.maxDigits ≤ n) :
    Text.isWritable (Nat.pow 10 n : Nat) = false := by
  refine decide_eq_false fun short => ?_
  have small := (Nat.length_toDigits_le_iff (by decide) (by decide)).1 short
  have large := Nat.pow_le_pow_right (show 0 < 10 by decide) long
  exact Nat.lt_irrefl _ (Nat.lt_of_lt_of_le small large)

def hoard : Catalog Json := [("a".toList, .list [.int colossal])]

/-- One integer of too many digits, and nothing is repaired. -/
theorem repair_refuses_hoard : hoard.names.Nodup ∧ repair hoard = .error .unwritable := by
  have refused : (Json.object hoard).writable = false := by
    change ((Text.isWritable colossal && true) && true) = false
    rw [colossal, not_isWritable_pow (Nat.le_refl _)]
    rfl
  exact ⟨by decide, (repair_hinges hoard).error_iff.1 refused⟩

end Decks

end DrawPile
