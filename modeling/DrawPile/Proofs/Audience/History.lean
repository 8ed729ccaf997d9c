import DrawPile.Audience
import Mathlib.Data.List.Induction
import Mathlib.Data.List.Nodup

/-! Orderly histories. What befalls an audience is a list of moments, and what makes it orderly is
said of such lists alone: who is there at each moment, who hears of which notice, and what becomes
of those who join while others listen. A history is orderly if it is a path through a hall in which
those who are still to hear of the last notice wait their turn. -/
namespace DrawPile

/-- What can befall an audience. -/
inductive Moment
  | joined (l : Listener)
  | dismissed (l : Listener)
  | gave (n : Notice)
  | heard (l : Listener) (n : Notice)
  deriving DecidableEq

namespace Moment

def without (l : Listener) (ls : List Listener) : List Listener :=
  ls.filter fun k => decide (k.id ≠ l.id)

/-- Who is there after a moment: one who joins comes last, and one who leaves at the first event
goes when it hears of one. -/
def after (ls : List Listener) : Moment → List Listener
  | .joined l => ls ++ [l]
  | .dismissed l => without l ls
  | .gave _ => ls
  | .heard l _ => if l.habit = .leave then without l ls else ls

def notice? : Moment → Option Notice
  | .gave n => some n
  | _ => none

def hearing? : Moment → Option (Listener × Notice)
  | .heard l n => some (l, n)
  | _ => none

/-- Who is there after a history. -/
def roster (ls : List Listener) (history : List Moment) : List Listener := history.foldl after ls

def untilNext (history : List Moment) : List Moment := history.takeWhile fun m => m.notice?.isNone

/-- Who hears of what before the next notice, in order. -/
def hearings (history : List Moment) : List (Listener × Notice) :=
  (untilNext history).filterMap hearing?

/-- The notices of a history, and what was heard in it, by name. -/
def given (history : List Moment) : List Notice := history.filterMap notice?

def heardByName (history : List Moment) : List (Text × Notice) :=
  (history.filterMap hearing?).map fun x => (x.1.id, x.2)

/-- Those whom a notice reaches: nobody after the first who raises an error. -/
def reached : List Listener → List Listener
  | [] => []
  | l :: ls => if l.habit = .refuse then [l] else l :: reached ls

/-- A listener has joined, and has heard nothing since. -/
def Unheard (l : Listener) (history : List Moment) : Prop :=
  ∃ early since, history = early ++ .joined l :: since ∧ ∀ n, .heard l n ∉ since

/-- What is orderly in a history that begins with nobody there. -/
structure Orderly (history : List Moment) : Prop where
  /-- Nobody is there twice, at any moment. -/
  distinct : ∀ before later, history = before ++ later →
    ((roster [] before).map Listener.id).Nodup
  /-- Nobody hears of anything before the first notice. -/
  opening : hearings history = []
  /-- Each notice is heard once by each of those who are there, in the order in which they came,
  until one raises an error. -/
  delivered : ∀ before n later, history = before ++ .gave n :: later →
    hearings later = (reached (roster [] before)).map fun l => (l, n)
  /-- One who joins hears nothing until the next notice, and is there for that. -/
  newcomers : ∀ before l later, history = before ++ .joined l :: later →
    (∀ n, (l, n) ∉ hearings later) ∧
      (.dismissed l ∉ untilNext later → l ∈ roster [] (before ++ .joined l :: untilNext later))
  /-- One who leaves at the first event has heard nothing since it joined last. -/
  once : ∀ before l n later, history = before ++ .heard l n :: later → l.habit = .leave →
    Unheard l before

theorem roster_append (ls : List Listener) (first second : List Moment) :
    roster ls (first ++ second) = roster (roster ls first) second :=
  List.foldl_append

@[simp] theorem given_append (first second : List Moment) :
    given (first ++ second) = given first ++ given second :=
  List.filterMap_append

@[simp] theorem heardByName_append (first second : List Moment) :
    heardByName (first ++ second) = heardByName first ++ heardByName second := by
  simp [heardByName]

@[simp] theorem given_gave (n : Notice) (history : List Moment) :
    given (.gave n :: history) = n :: given history := rfl

@[simp] theorem given_heard (l : Listener) (n : Notice) (history : List Moment) :
    given (.heard l n :: history) = given history := rfl

@[simp] theorem heardByName_gave (n : Notice) (history : List Moment) :
    heardByName (.gave n :: history) = heardByName history := rfl

@[simp] theorem heardByName_heard (l : Listener) (n : Notice) (history : List Moment) :
    heardByName (.heard l n :: history) = (l.id, n) :: heardByName history := rfl

theorem mem_without {k l : Listener} {ls : List Listener} :
    k ∈ without l ls ↔ k ∈ ls ∧ k.id ≠ l.id := by
  simp [without]

theorem mem_after_heard {k l : Listener} (n : Notice) {ls : List Listener} (there : k ∈ ls)
    (other : k.id ≠ l.id) : k ∈ after ls (.heard l n) := by
  simp only [after]
  split
  · exact mem_without.2 ⟨there, other⟩
  · exact there

theorem mem_of_mem_after_heard {k l : Listener} {n : Notice} {ls : List Listener}
    (there : k ∈ after ls (.heard l n)) : k ∈ ls := by
  simp only [after] at there
  split at there
  · exact (mem_without.1 there).1
  · exact there

theorem nodup_joined {l : Listener} {ls : List Listener} (distinct : (ls.map Listener.id).Nodup)
    (absent : l.id ∉ ls.map Listener.id) : ((ls ++ [l]).map Listener.id).Nodup := by
  simp only [List.map_append, List.map_singleton]
  exact List.nodup_append_comm.1 (List.nodup_cons.2 ⟨absent, distinct⟩)

theorem reached_sublist (ls : List Listener) : (reached ls).Sublist ls := by
  induction ls with
  | nil => exact .slnil
  | cons l ls ih =>
    unfold reached
    split
    · exact List.singleton_sublist.2 List.mem_cons_self
    · exact ih.cons_cons l

theorem Unheard.append_singleton {l : Listener} {history : List Moment} {m : Moment}
    (unheard : Unheard l history) (other : ∀ n, m ≠ .heard l n) : Unheard l (history ++ [m]) := by
  obtain ⟨early, since, rfl, nothing⟩ := unheard
  refine ⟨early, since ++ [m], by simp, ?_⟩
  intro n heard
  rcases List.mem_append.1 heard with heard | last
  · exact nothing n heard
  · exact other n (List.mem_singleton.1 last).symm

end Moment

/- Those who are there, and those among them who have yet to hear of the last notice. -/
structure Hall where
  present : List Listener
  waiting : List (Listener × Notice)

namespace Hall
open Moment
variable {a b : Hall} {history : List Moment}

/-- Nobody goes out of turn, and no notice is given while someone waits. -/
inductive Moves : Hall → Moment → Hall → Prop
  | joins {ls : List Listener} {waiting : List (Listener × Notice)} {l : Listener}
      (absent : l.id ∉ ls.map Listener.id) :
      Moves ⟨ls, waiting⟩ (.joined l) ⟨after ls (.joined l), waiting⟩
  | goes {ls : List Listener} {l : Listener} (there : l ∈ ls) :
      Moves ⟨ls, []⟩ (.dismissed l) ⟨after ls (.dismissed l), []⟩
  | gives (ls : List Listener) (n : Notice) :
      Moves ⟨ls, []⟩ (.gave n) ⟨after ls (.gave n), (reached ls).map fun l => (l, n)⟩
  | hears (ls : List Listener) (waiting : List (Listener × Notice)) (l : Listener) (n : Notice) :
      Moves ⟨ls, (l, n) :: waiting⟩ (.heard l n) ⟨after ls (.heard l n), waiting⟩

inductive Path : Hall → List Moment → Hall → Prop
  | rest (a : Hall) : Path a [] a
  | next {a b c : Hall} {m : Moment} {history : List Moment} (moves : Moves a m b)
      (path : Path b history c) : Path a (m :: history) c

/- Those who wait are there, in the same order. -/
structure Sound (a : Hall) : Prop where
  distinct : (a.present.map Listener.id).Nodup
  ordered : (a.waiting.map Prod.fst).Sublist a.present

theorem Sound.eq_of_id (sound : a.Sound) {k l : Listener} (there : k ∈ a.present)
    (there' : l ∈ a.present) (same : k.id = l.id) : k = l :=
  List.inj_on_of_nodup_map sound.distinct there there' same

theorem Sound.waits_once {l : Listener} {waiting : List (Listener × Notice)} {n : Notice}
    {ls : List Listener} (sound : Sound ⟨ls, (l, n) :: waiting⟩) :
    ∀ k ∈ waiting.map Prod.fst, k.id ≠ l.id := by
  have distinct := sound.distinct.sublist (sound.ordered.map Listener.id)
  intro k waits same
  exact (List.nodup_cons.1 distinct).1 (same ▸ List.mem_map_of_mem waits)

theorem Moves.sound {m : Moment} (moves : Moves a m b) (sound : a.Sound) : b.Sound := by
  cases moves with
  | joins absent =>
    constructor
    · exact nodup_joined sound.distinct absent
    · exact sound.ordered.trans (List.sublist_append_left ..)
  | goes there =>
    constructor
    · exact sound.distinct.sublist (List.filter_sublist.map _)
    · exact List.nil_sublist _
  | gives ls n =>
    constructor
    · exact sound.distinct
    · simpa [after, Function.comp_def] using reached_sublist ls
  | hears ls waiting l n =>
    have later : (waiting.map Prod.fst).Sublist ls :=
      (List.sublist_cons_self ..).trans sound.ordered
    simp only [after]
    split
    · constructor
      · exact sound.distinct.sublist (List.filter_sublist.map _)
      · have others := sound.waits_once
        have kept : (waiting.map Prod.fst).filter (fun k => decide (k.id ≠ l.id)) =
            waiting.map Prod.fst := by
          simpa [List.filter_eq_self] using others
        rw [← kept]
        exact later.filter _
    · exact ⟨sound.distinct, later⟩

theorem Moves.present {m : Moment} (moves : Moves a m b) : b.present = after a.present m := by
  cases moves <;> rfl

namespace Path

theorem single {m : Moment} (moves : Moves a m b) : Path a [m] b := .next moves (.rest b)

theorem append {c : Hall} {first second : List Moment} (path : Path a first b)
    (later : Path b second c) : Path a (first ++ second) c := by
  induction path with
  | rest => exact later
  | next moves _ ih => exact .next moves (ih later)

theorem split {c : Hall} {first second : List Moment} (path : Path a (first ++ second) c) :
    ∃ b, Path a first b ∧ Path b second c := by
  induction first generalizing a with
  | nil => exact ⟨a, .rest a, path⟩
  | cons m first ih =>
    cases path with
    | next moves path =>
      obtain ⟨b, before, later⟩ := ih path
      exact ⟨b, .next moves before, later⟩

theorem sound (path : Path a history b) (sound : a.Sound) : b.Sound := by
  induction path with
  | rest => exact sound
  | next moves _ ih => exact ih (moves.sound sound)

theorem present (path : Path a history b) : b.present = roster a.present history := by
  induction path with
  | rest => rfl
  | next moves _ ih => rw [ih, moves.present]; rfl

/-- When nobody is left waiting, those who waited have heard, and nobody else. -/
theorem hearings (path : Path a history b) (ended : b.waiting = []) :
    Moment.hearings history = a.waiting := by
  induction path with
  | rest a => exact ended.symm
  | next moves _ ih =>
    have later := ih ended
    cases moves with
    | joins absent => exact later
    | goes there => exact later
    | gives ls n => rfl
    | hears ls waiting l n => exact congrArg ((l, n) :: ·) later

/-- One who does not wait stays until the next notice, unless it is dismissed. -/
theorem stays {l : Listener} (path : Path a history b) (sound : a.Sound) (there : l ∈ a.present)
    (idle : l ∉ a.waiting.map Prod.fst) (kept : .dismissed l ∉ untilNext history) :
    l ∈ roster a.present (untilNext history) := by
  induction path with
  | rest => exact there
  | next moves _ ih =>
    have later := ih (moves.sound sound)
    cases moves with
    | joins absent =>
      have kept_later := fun dismissed => kept (List.mem_cons_of_mem _ dismissed)
      exact later (List.mem_append_left _ there) idle kept_later
    | @goes ls k present =>
      have others : l.id ≠ k.id := by
        intro same
        obtain rfl := sound.eq_of_id there present same
        exact kept List.mem_cons_self
      have kept_later := fun dismissed => kept (List.mem_cons_of_mem _ dismissed)
      exact later (mem_without.2 ⟨there, others⟩) idle kept_later
    | gives ls n => exact there
    | hears ls waiting k n =>
      have others : l.id ≠ k.id := by
        intro same
        have present : k ∈ ls := sound.ordered.subset List.mem_cons_self
        obtain rfl := sound.eq_of_id there present same
        exact idle List.mem_cons_self
      have idle_later := fun waits => idle (List.mem_cons_of_mem _ waits)
      have kept_later := fun dismissed => kept (List.mem_cons_of_mem _ dismissed)
      exact later (mem_after_heard n there others) idle_later kept_later

theorem unheard {l : Listener} (path : Path ⟨[], []⟩ history b) (there : l ∈ b.present)
    (leaves : l.habit = .leave) : Unheard l history := by
  induction history using List.reverseRecOn generalizing b with
  | nil =>
    cases path
    cases there
  | append_singleton history m ih =>
    obtain ⟨a, before, last⟩ := path.split
    cases last with
    | next moves rest =>
      cases rest
      have earlier := fun there => ih (b := a) before there
      cases moves with
      | joins absent =>
        rcases List.mem_append.1 there with there | last
        · exact (earlier there).append_singleton nofun
        · obtain rfl := List.mem_singleton.1 last
          exact ⟨history, [], rfl, nofun⟩
      | goes present => exact (earlier (mem_without.1 there).1).append_singleton nofun
      | gives ls n => exact (earlier there).append_singleton nofun
      | hears ls waiting k n =>
        simp only [after] at there
        split at there
        · obtain ⟨there, others⟩ := mem_without.1 there
          refine (earlier there).append_singleton ?_
          rintro _ ⟨⟩
          exact others rfl
        · next remains =>
          refine (earlier there).append_singleton ?_
          rintro _ ⟨⟩
          exact remains leaves

theorem delivery {n : Notice} (path : Path a (.gave n :: history) b) (ended : b.waiting = []) :
    Moment.hearings history = (reached a.present).map fun l => (l, n) := by
  cases path with
  | next moves path =>
    cases moves with
    | gives ls n => exact path.hearings ended

theorem newcomer {l : Listener} (path : Path a (.joined l :: history) b) (sound : a.Sound)
    (ended : b.waiting = []) :
    (∀ n, (l, n) ∉ Moment.hearings history) ∧
      (.dismissed l ∉ untilNext history →
        l ∈ roster a.present (.joined l :: untilNext history)) := by
  cases path with
  | next moves path =>
    have sound_after := moves.sound sound
    cases moves with
    | @joins ls waiting _ absent =>
      have idle : l ∉ waiting.map Prod.fst := fun waits =>
        absent (List.mem_map_of_mem (sound.ordered.subset waits))
      constructor
      · intro n heard
        rw [path.hearings ended] at heard
        exact idle (List.mem_map_of_mem heard)
      · exact path.stays sound_after (List.mem_append_right _ List.mem_cons_self) idle

theorem hears_there {l : Listener} {n : Notice} (path : Path a (.heard l n :: history) b)
    (sound : a.Sound) :
    l ∈ a.present := by
  cases path with
  | next moves path =>
    cases moves with
    | hears => exact sound.ordered.subset List.mem_cons_self

theorem orderly (path : Path ⟨[], []⟩ history b) (ended : b.waiting = []) : Orderly history := by
  have empty : Sound ⟨[], []⟩ := ⟨List.nodup_nil, List.nil_sublist _⟩
  constructor
  · rintro before later rfl
    obtain ⟨a, first, -⟩ := path.split
    rw [← first.present]
    exact (first.sound empty).distinct
  · exact path.hearings ended
  · rintro before n later rfl
    obtain ⟨a, first, second⟩ := path.split
    rw [← first.present]
    exact second.delivery ended
  · rintro before l later rfl
    obtain ⟨a, first, second⟩ := path.split
    rw [roster_append, ← first.present]
    exact second.newcomer (first.sound empty) ended
  · rintro before l n later rfl leaves
    obtain ⟨a, first, second⟩ := path.split
    exact first.unheard (second.hears_there (first.sound empty)) leaves

end Path

end Hall

end DrawPile
