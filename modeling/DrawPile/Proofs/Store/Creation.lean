import DrawPile.Proofs.Store.Answer
import DrawPile.Proofs.Store.Step
import Mathlib.Data.Nat.Init

/-! Making a deck. The search for its name goes through the numbers without a bound, and it ends: with
the first number under which no deck shares the base name, and that is at most the number of decks.
The deck is made under this name, whoever listens. -/
namespace DrawPile.Store

/-- The first number under which no name of a list shares the base name. -/
structure FirstFree (existing : List Text) (name : Text) (k : Nat) : Prop where
  free : ∀ other ∈ existing, Name.base other ≠ Name.base (numbered name k)
  least : ∀ n < k, ∃ other ∈ existing, Name.base other = Name.base (numbered name n)

/-- The search from a number on. It ends with a name that nothing stands against, and goes on from any
other to the next number, however far that leads. -/
inductive Search (existing : List Text) (name : Text) : Nat → Text → Prop
  | found {n : Nat} (free : Name.conflicts (numbered name n) existing none = []) :
      Search existing name n (numbered name n)
  | taken {n : Nat} {result : Text}
      (issues : Name.conflicts (numbered name n) existing none ≠ [])
      (next : Search existing name (n + 1) result) : Search existing name n result

theorem conflicts_numbered_eq_nil_iff {existing : List Text} {name : Text} {n : Nat} :
    Name.conflicts (numbered name n) existing none = [] ↔
      ∀ other ∈ existing, Name.base other ≠ Name.base (numbered name n) := by
  simp [Name.conflicts_eq_nil_iff]

theorem exists_firstFree (existing : List Text) (name : Text) :
    ∃ k ≤ existing.length, freeName existing name = numbered name k ∧
      FirstFree existing name k := by
  obtain ⟨k, within, chosen, free, earlier⟩ := freeName_least existing name
  refine ⟨k, within, chosen, conflicts_numbered_eq_nil_iff.1 free, ?_⟩
  intro n below
  have taken := earlier n below
  rw [ne_eq, conflicts_numbered_eq_nil_iff] at taken
  push Not at taken
  exact taken

namespace FirstFree

theorem search {existing : List Text} {name : Text} {n k : Nat} (first : FirstFree existing name k)
    (within : n ≤ k) :
    Search existing name n (numbered name k) := by
  -- On the way that is left: at its end the name is free, and before it a deck is in the way.
  induction within using Nat.decreasingInduction with
  | self => exact .found (conflicts_numbered_eq_nil_iff.2 first.free)
  | of_succ n below ih =>
    refine .taken (fun free => ?_) ih
    obtain ⟨other, present, same⟩ := first.least n below
    exact conflicts_numbered_eq_nil_iff.1 free other present same

end FirstFree

theorem Search.unique {existing : List Text} {name result : Text} {n : Nat} {result' : Text}
    (search : Search existing name n result) (search' : Search existing name n result') :
    result = result' := by
  induction search with
  | found free =>
    cases search' with
    | found => rfl
    | taken issues => exact absurd free issues
  | taken issues _ ih =>
    cases search' with
    | found free => exact absurd free issues
    | taken _ next => exact ih next

theorem FirstFree.search_iff {existing : List Text} {name result : Text} {k : Nat}
    (first : FirstFree existing name k) :
    Search existing name 0 result ↔ result = numbered name k := by
  have ends := first.search (Nat.zero_le k)
  constructor
  · intro search
    exact search.unique ends
  · rintro rfl
    exact ends

/-- The name that is asked for: the one given, trimmed, or the usual one where that leaves nothing. -/
def wantedName (s : Store) (name : Option Text) : Text :=
  nonBlankOr s.settings.defaultDeckName (name.getD [])

theorem step_createDeck (s : Store) (name : Option Text) :
    s.step (.createDeck name) =
      announce { s.freshRecord with
          decks := s.decks ++ [(freeName s.names (s.wantedName name), [])] }
        .created (freeName s.names (s.wantedName name))
        (.text (freeName s.names (s.wantedName name))) :=
  announce_map ..

/-- The search for a name ends with the first one that is free, at the latest when there have been as
many numbers as there are decks. Under that name an empty deck stands behind the others, which are as
they were, and one notice is given of it. The name is the result, unless a listener raises an error. -/
theorem created_under_first_free (s : Store) (name : Option Text) :
    ∃ k ≤ s.decks.length, FirstFree s.names (s.wantedName name) k ∧
      (∀ result, Search s.names (s.wantedName name) 0 result ↔
        result = numbered (s.wantedName name) k) ∧
      (s.step (.createDeck name)).1.decks = s.decks ++ [(numbered (s.wantedName name) k, [])] ∧
      (s.step (.createDeck name)).1.host.happened =
        [⟨.created, numbered (s.wantedName name) k⟩] ∧
      (s.step (.createDeck name)).2 = (Audience.answer s.host.subscribed).map fun _ =>
        .text (numbered (s.wantedName name) k) := by
  obtain ⟨k, within, chosen, first⟩ := exists_firstFree s.names (s.wantedName name)
  have size : s.names.length = s.decks.length := List.length_map _
  refine ⟨k, size ▸ within, first, fun _ => first.search_iff, ?_⟩
  rw [step_createDeck, chosen]
  exact ⟨rfl, Audience.announce_happened .., announce_snd ..⟩

def refusing : Store := (underscored.step (.subscribe "r".toList .refuse)).1

theorem created_under_first_free_refused :
    Reachable refusing ∧ FirstFree refusing.names (refusing.wantedName (some "c".toList)) 0 ∧
      (refusing.step (.createDeck (some "c".toList))).2 = .error (.listener "r".toList) := by
  refine ⟨underscored_reachable.stepped _, ⟨by decide, by simp⟩, ?_⟩
  rw [step_createDeck, announce_snd]
  rfl

end DrawPile.Store
