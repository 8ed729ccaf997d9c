import DrawPile.Repair
import Mathlib.Data.List.Forall2

/-! When repair succeeds: exactly if no integer in the data has too many digits, wherever it stands.
Decks written as JSON have none, and need no repair: they are read back as they were, without a
warning. -/
namespace DrawPile

section Results
variable {α β : Type}

/-- A result that is there if integers can be written, and not otherwise. -/
inductive Hinges : Bool → Except Error β → Prop
  | given (b : β) : Hinges true (.ok b)
  | refused : Hinges false (.error .unwritable)

theorem Hinges.map {γ : Type} {able : Bool} {x : Except Error β} (hinges : Hinges able x)
    (g : β → γ) : Hinges able (x.map g) := by
  cases hinges with
  | given b => exact .given (g b)
  | refused => exact .refused

/-- A list has all results or none. -/
theorem Hinges.mapM {f : α → Except Error β} {able : α → Bool} (each : ∀ a, Hinges (able a) (f a))
    (xs : List α) :
    Hinges (xs.all able) (xs.mapM f) := by
  induction xs with
  | nil => exact .given []
  | cons a xs ih =>
    have first := each a
    rw [List.all_cons, List.mapM_cons]
    generalize able a = b, f a = result at first
    generalize xs.all able = bs, xs.mapM f = results at ih
    cases first with
    | refused => exact .refused
    | given b =>
      cases ih with
      | refused => exact .refused
      | given bs => exact .given (b :: bs)

theorem Hinges.ok_iff {able : Bool} {x : Except Error β} (hinges : Hinges able x) :
    able = true ↔ ∃ b, x = .ok b := by
  cases hinges <;> simp

theorem Hinges.error_iff {able : Bool} {x : Except Error β} (hinges : Hinges able x) :
    able = false ↔ x = .error .unwritable := by
  cases hinges <;> simp

theorem forall₂_of_mapM {f : α → Except Error β} {xs : List α} {ys : List β}
    (done : xs.mapM f = .ok ys) :
    List.Forall₂ (fun a b => f a = .ok b) xs ys := by
  induction xs generalizing ys with
  | nil =>
    cases done
    exact .nil
  | cons a xs ih =>
    rw [List.mapM_cons] at done
    cases first : f a with
    | error e =>
      rw [first] at done
      cases done
    | ok b =>
      cases others : xs.mapM f with
      | error e =>
        rw [first, others] at done
        cases done
      | ok bs =>
        rw [first, others] at done
        cases done
        exact .cons first (ih others)

theorem getElem?_of_mapM {f : α → Except Error β} {xs : List α} {ys : List β}
    (done : xs.mapM f = .ok ys) {index : Nat} {a : α} (there : xs[index]? = some a) :
    ∃ b, ys[index]? = some b ∧ f a = .ok b := by
  have paired := forall₂_of_mapM done
  obtain ⟨within, stands⟩ := List.getElem?_eq_some_iff.1 there
  have within' : index < ys.length := paired.length_eq ▸ within
  have made := paired.get within within'
  rw [List.get_eq_getElem, stands] at made
  exact ⟨_, List.getElem?_eq_getElem within', made⟩

theorem mapM_of_forall₂ {f : α → Except Error β} {xs : List α} {ys : List β}
    (each : List.Forall₂ (fun a b => f a = .ok b) xs ys) : xs.mapM f = .ok ys := by
  induction each with
  | nil => rfl
  | cons first _ ih =>
    rw [List.mapM_cons, first, ih]
    rfl

end Results

namespace Json

/-- An integer stands somewhere in a value. -/
inductive Holds (n : Int) : Json → Prop
  | here : Holds n (.int n)
  | item {items : List Json} {v : Json} (member : v ∈ items) (inside : Holds n v) :
      Holds n (.list items)
  | member {members : List (Text × Json)} {m : Text × Json} (member : m ∈ members)
      (inside : Holds n m.2) : Holds n (.object members)

theorem Holds.isWritable {n : Int} {v : Json} (holds : Holds n v) (able : v.writable = true) :
    Text.isWritable n = true := by
  induction holds with
  | here => exact able
  | item member _ ih =>
    rw [writable, itemsWritable_eq_all, List.all_eq_true] at able
    exact ih (able _ member)
  | member member _ ih =>
    rw [writable, membersWritable_eq_all, List.all_eq_true] at able
    exact ih (able _ member)

theorem writable_of_holds : ∀ v : Json, (∀ n, Holds n v → Text.isWritable n = true) →
    v.writable = true
  | .null, _ => rfl
  | .bool _, _ => rfl
  | .float _, _ => rfl
  | .text _, _ => rfl
  | .int n, each => each n .here
  | .list items, each => by
    rw [writable, itemsWritable_eq_all, List.all_eq_true]
    exact fun v member => writable_of_holds v fun n inside => each n (.item member inside)
  | .object members, each => by
    rw [writable, membersWritable_eq_all, List.all_eq_true]
    exact fun m member => writable_of_holds m.2 fun n inside => each n (.member member inside)
decreasing_by
  all_goals simp_wf
  · have smaller := List.sizeOf_lt_of_mem member
    omega
  · obtain ⟨name, v⟩ := m
    have smaller := List.sizeOf_lt_of_mem member
    simp only [Prod.mk.sizeOf_spec] at smaller ⊢
    omega

theorem writable_iff {v : Json} :
    v.writable = true ↔ ∀ n, Holds n v → Text.isWritable n = true :=
  ⟨fun able _ holds => holds.isWritable able, writable_of_holds v⟩

theorem dump_hinges (indent : Option Nat) (v : Json) : Hinges v.writable (v.dump indent) := by
  unfold dump
  cases v.writable
  · exact .refused
  · exact .given _

end Json

namespace Decks

theorem entryText_hinges (v : Json) : Hinges v.writable (entryText v) := by
  cases v with
  | int n =>
    rw [entryText, Json.writable]
    cases Text.isWritable n
    · exact .refused
    · exact .given _
  | list items => exact Json.dump_hinges none (.list items)
  | object members => exact Json.dump_hinges none (.object members)
  | _ => exact .given _

theorem repairDeck_hinges (v : Json) : Hinges v.writable (repairDeck v) := by
  cases v with
  | null => exact .given []
  | list items =>
    rw [Json.writable, Json.itemsWritable_eq_all]
    exact .mapM entryText_hinges items
  | _ => exact (entryText_hinges _).map fun entry => [entry]

theorem repair_hinges (data : Catalog Json) :
    Hinges (Json.object data).writable (repair data) := by
  rw [Json.writable, Json.membersWritable_eq_all]
  exact .mapM (fun m => (repairDeck_hinges m.2).map _) data

theorem repair_ok_iff {data : Catalog Json} {decks : Decks} :
    repair data = .ok decks ↔
      List.Forall₂ (fun m deck => deck.1 = m.1 ∧ repairDeck m.2 = .ok deck.2) data decks := by
  have each (m : Text × Json) (deck : Text × List Text) :
      ((repairDeck m.2).map fun entries => (m.1, entries)) = .ok deck ↔
        deck.1 = m.1 ∧ repairDeck m.2 = .ok deck.2 := by
    cases repairDeck m.2 with
    | error e => simp [Except.map]
    | ok entries => simp [Except.map, Prod.ext_iff, eq_comm]
  simp only [← each]
  exact ⟨forall₂_of_mapM, mapM_of_forall₂⟩

/-- The members of the object that decks are written as. -/
def members (decks : Decks) : Catalog Json := decks.map fun d => (d.1, .list (d.2.map .text))

theorem toJson_eq (decks : Decks) : decks.toJson = .object decks.members := rfl

@[simp] theorem names_members (decks : Decks) : decks.members.names = decks.names := by
  simp [members, Catalog.names]

theorem repairDeck_texts (entries : List Text) :
    repairDeck (.list (entries.map .text)) = .ok entries := by
  refine mapM_of_forall₂ ?_
  rw [List.forall₂_map_left_iff, List.forall₂_same]
  exact fun _ _ => rfl

theorem repair_members (decks : Decks) : repair decks.members = .ok decks := by
  rw [repair_ok_iff, members, List.forall₂_map_left_iff, List.forall₂_same]
  exact fun deck _ => ⟨rfl, repairDeck_texts deck.2⟩

theorem ofEntries_text (deck : Text) (index : Nat) (entries : List Text) :
    Issue.ofEntries deck index (entries.map .text) = [] := by
  induction entries generalizing index with
  | nil => rfl
  | cons entry entries ih => exact ih (index + 1)

theorem repairWarnings_members (decks : Decks) : repairWarnings decks.members = [] := by
  have none_found : decks.members.flatMap (fun m => Issue.ofDeck m.1 m.2) = [] := by
    rw [List.flatMap_eq_nil_iff]
    intro m member
    obtain ⟨deck, -, rfl⟩ := List.mem_map.1 member
    exact ofEntries_text deck.1 0 deck.2
  simp [repairWarnings, Issue.all, none_found]

end Decks

end DrawPile
