import DrawPile.Proofs.Catalog
import DrawPile.Proofs.Entry
import DrawPile.Proofs.Store.Step

/-! Entries as they are entered and as they are read. What is entered with a weight is read back if
the weight can be told from the content behind it, and what is entered without one if the content
does not look as if it had one; and no other entry is, by whatever operation it came into its deck.
-/
namespace DrawPile
namespace Entry

/-- What is meant by a content and a weight: a weight that is empty or one is none. -/
def entered (content : Text) (weight : Option Text) : Entry :=
  ⟨if isImplicit weight then none else weight, content⟩

inductive Readable (content : Text) : Option Text → Prop
  | explicit {w : Text} (counts : w ≠ [] ∧ w ≠ ['1']) (unmarked : ¬ marker <:+: w)
      (open_end : ¬ [':'] <:+ w) : Readable content (some w)
  | implicit {weight : Option Text}
      (counts_not : weight = none ∨ weight = some [] ∨ weight = some ['1'])
      (unmarked : ¬ marker <+: content ∨ ¬ marker <:+: content.drop 2) : Readable content weight

theorem decode_encode_iff {content : Text} {weight : Option Text} :
    decode (encode content weight) = entered content weight ↔ Readable content weight := by
  by_cases implicit : isImplicit weight = true
  · rw [entered, if_pos implicit, encode_of_implicit implicit, decode_eq_plain_iff]
    constructor
    · exact .implicit (isImplicit_iff.1 implicit)
    · rintro (⟨counts, -, -⟩ | ⟨-, unmarked⟩)
      · simp [isImplicit, counts] at implicit
      · exact unmarked
  · have counts := mt isImplicit_iff.2 implicit
    obtain ⟨w, rfl⟩ : ∃ w, weight = some w := Option.ne_none_iff_exists'.1 fun missing =>
      counts (.inl missing)
    rw [entered, if_neg implicit, encode_of_explicit implicit, decode_weighted_iff, delimited_iff]
    constructor
    · rintro ⟨unmarked, open_end⟩
      exact .explicit (by simpa using counts) unmarked open_end
    · rintro (⟨-, unmarked, open_end⟩ | ⟨counts_not, -⟩)
      · exact ⟨unmarked, open_end⟩
      · exact absurd counts_not counts

end Entry

namespace Store
variable {s : Store} {name : Text} {entries : List Text}

theorem withDeck_of_get? {α : Type} {f : List Text → Outcome Store α}
    (found : s.decks.get? name = some entries) : s.withDeck name f = f entries := by
  simp only [withDeck, require, found, Outcome.of_ok, Outcome.andThen_ok]

theorem withEntry_of_get? {α : Type} {f : List Text → Nat → Outcome Store α}
    (found : s.decks.get? name = some entries) {place : Nat} (inside : place < entries.length) :
    s.withEntry name place f = f entries place := by
  have allowed : 0 ≤ (place : Int) ∧ (place : Int) < entries.length := by omega
  rw [withEntry, withDeck_of_get? found, if_pos allowed, Int.toNat_natCast]

theorem entries_of_get? (found : s.decks.get? name = some entries) :
    (s.step (.entries name)).2 = .ok (.entries (entries.map Entry.decode)) := by
  have there : s.freshRecord.decks.get? name = some entries := found
  simp only [step, perform, entryRecords, require, there]
  rfl

/-- Entries put into a deck are those it is then asked for. -/
theorem entries_after_setEntries {α : Type} {t : Store} (name : Text) (entries : List Text)
    (result : α) :
    ((t.setEntries name entries result).1.step (.entries name)).2 =
      .ok (.entries (entries.map Entry.decode)) :=
  entries_of_get? Catalog.get?_put_self

theorem entries_after_addEntry {content : Text} {weight : Option Text}
    (found : s.decks.get? name = some entries) :
    ((s.step (.addEntry name content weight)).1.step (.entries name)).2 =
      .ok (.entries (entries.map Entry.decode ++ [Entry.decode (Entry.encode content weight)])) := by
  have there : s.freshRecord.decks.get? name = some entries := found
  simp only [step, perform, addEntry, withDeck_of_get? there, Outcome.map_fst]
  exact (entries_after_setEntries ..).trans (by rw [List.map_append, List.map_singleton])

theorem entries_after_updateEntry {content : Text} {weight : Option Text}
    (found : s.decks.get? name = some entries) {place : Nat} (inside : place < entries.length) :
    ((s.step (.updateEntry name place content weight)).1.step (.entries name)).2 =
      .ok (.entries ((entries.map Entry.decode).set place
        (Entry.decode (Entry.encode content weight)))) := by
  have there : s.freshRecord.decks.get? name = some entries := found
  simp only [step, perform, updateEntry, withEntry_of_get? there inside, Outcome.map_fst]
  exact (entries_after_setEntries ..).trans (by rw [List.map_set])

theorem place_of_addEntry {content : Text} {weight : Option Text}
    (found : s.decks.get? name = some entries) :
    (s.step (.addEntry name content weight)).2 =
      (Audience.answer s.host.subscribed).map fun _ => .place entries.length := by
  have there : s.freshRecord.decks.get? name = some entries := found
  have listeners : s.freshRecord.host.subscribed = s.host.subscribed := rfl
  simp only [step, perform, addEntry, withDeck_of_get? there, Outcome.map_snd, setEntries,
    announce_snd, listeners]
  cases Audience.answer s.host.subscribed <;> rfl

/-- A content with a weight, or with none, is read back exactly if it is readable: by itself, as an
entry added to a deck, and as one put in the place of another. -/
theorem entered_read_back_iff (content : Text) (weight : Option Text) :
    (Entry.decode (Entry.encode content weight) = Entry.entered content weight ↔
      Entry.Readable content weight) ∧
    ∀ (s : Store) (name : Text) (entries : List Text), s.decks.get? name = some entries →
      ((s.step (.addEntry name content weight)).2 =
          (Audience.answer s.host.subscribed).map (fun _ => .place entries.length) ∧
        ∃ records,
          ((s.step (.addEntry name content weight)).1.step (.entries name)).2 =
            .ok (.entries records) ∧
          (records[entries.length]? = some (Entry.entered content weight) ↔
            Entry.Readable content weight)) ∧
      ∀ place < entries.length, ∃ records,
        ((s.step (.updateEntry name place content weight)).1.step (.entries name)).2 =
          .ok (.entries records) ∧
        (records[place]? = some (Entry.entered content weight) ↔
          Entry.Readable content weight) := by
  refine ⟨Entry.decode_encode_iff, ?_⟩
  intro s name entries found
  refine ⟨⟨place_of_addEntry found, _, entries_after_addEntry found, ?_⟩, ?_⟩
  · rw [← Entry.decode_encode_iff]
    simp
  · intro place inside
    refine ⟨_, entries_after_updateEntry found inside, ?_⟩
    rw [← Entry.decode_encode_iff]
    simp [inside]

theorem entered_read_back_of_colons :
    underscored.decks.get? "__b".toList = some ["x".toList] ∧
      (∃ records, ((underscored.step (.addEntry "__b".toList ":y".toList (some ":a".toList))).1.step
          (.entries "__b".toList)).2 = .ok (.entries records) ∧
        records[1]? = some ⟨some ":a".toList, ":y".toList⟩) ∧
      ∃ records, ((underscored.step (.updateEntry "__b".toList 0 "y".toList
          (some "a:".toList))).1.step (.entries "__b".toList)).2 = .ok (.entries records) ∧
        records[0]? ≠ some ⟨some "a:".toList, "y".toList⟩ := by
  have found : underscored.decks.get? "__b".toList = some ["x".toList] := rfl
  have readable : Entry.Readable ":y".toList (some ":a".toList) :=
    .explicit (by decide) (by decide) (by decide)
  have unreadable : ¬ Entry.Readable "y".toList (some "a:".toList) := by
    rw [← Entry.decode_encode_iff]
    decide
  obtain ⟨-, added, gives, kept⟩ :=
    ((entered_read_back_iff ":y".toList (some ":a".toList)).2 underscored _ _ found).1
  obtain ⟨updated, gives', lost⟩ :=
    ((entered_read_back_iff "y".toList (some "a:".toList)).2 underscored _ _ found).2 0 (by decide)
  exact ⟨found, ⟨added, gives, kept.2 readable⟩, updated, gives', mt lost.1 unreadable⟩

end Store

end DrawPile
