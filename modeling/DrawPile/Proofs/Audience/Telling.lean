import DrawPile.Proofs.Audience
import DrawPile.Proofs.Audience.History

/-! The history of an audience as notices are given to it. The moments are read off its states: who
hears, one after another, and who is subscribed after that and was not before. Such a history is a
path through a hall, at whose end nobody waits. -/
namespace DrawPile

namespace Audience
open Moment
variable {a : Audience}

/-- Those who are subscribed later and were not before join; the others go. -/
def arrivals (a b : Audience) : List Moment :=
  (b.subscribed.filter fun l => decide (l ∉ a.subscribed)).map .joined

def dismissals (a b : Audience) : List Moment :=
  (a.subscribed.filter fun l => decide (l ∉ b.subscribed)).map .dismissed

/-- What happens while some listeners are told, one after another. -/
def telling (n : Notice) : List Listener → Audience → List Moment
  | [], _ => []
  | l :: rest, a =>
    .heard l n :: arrivals a (a.hear l n).1 ++
      match a.hear l n with
      | (b, .ok _) => telling n rest b
      | (_, .error _) => []

def announcing (a : Audience) (n : Notice) : List Moment :=
  .gave n :: telling n a.subscribed { a with happened := a.happened ++ [n] }

/-- The audience after some notices, whoever raised errors, and what happened meanwhile. -/
def announceAll (a : Audience) (ns : List Notice) : Audience :=
  ns.foldl (fun a n => (a.announce n).1) a

def announcingAll (a : Audience) : List Notice → List Moment
  | [] => []
  | n :: ns => a.announcing n ++ (a.announce n).1.announcingAll ns

/-- Names stand for one listener each, and nobody is subscribed twice. -/
structure Proper (a : Audience) : Prop where
  named : (a.known.map Listener.id).Nodup
  known : ∀ l ∈ a.subscribed, l ∈ a.known
  distinct : (a.subscribed.map Listener.id).Nodup

theorem proper_nobody : Proper {} := ⟨List.nodup_nil, nofun, List.nodup_nil⟩

namespace Proper

theorem of_same {b : Audience} (proper : a.Proper) (known : b.known = a.known)
    (subscribed : b.subscribed = a.subscribed) : b.Proper := by
  obtain ⟨named, all_known, distinct⟩ := proper
  exact ⟨known ▸ named, by rw [known, subscribed]; exact all_known, subscribed ▸ distinct⟩

theorem added {b : Audience} {l : Listener} (proper : a.Proper)
    (named : (b.known.map Listener.id).Nodup) (kept : ∀ k ∈ a.known, k ∈ b.known)
    (known : l ∈ b.known) (absent : l.id ∉ a.subscribed.map Listener.id)
    (subscribed : b.subscribed = a.subscribed ++ [l]) : b.Proper := by
  constructor
  · exact named
  · intro k member
    rw [subscribed] at member
    rcases List.mem_append.1 member with before | last
    · exact kept k (proper.known k before)
    · exact List.mem_singleton.1 last ▸ known
  · rw [subscribed]
    exact nodup_joined proper.distinct absent

/-- One who is known and not there has a name that nobody there has. -/
theorem absent {l : Listener} (proper : a.Proper) (known : l ∈ a.known)
    (outside : l ∉ a.subscribed) :
    l.id ∉ a.subscribed.map Listener.id := by
  intro clash
  obtain ⟨k, there, same⟩ := List.mem_map.1 clash
  obtain rfl := List.inj_on_of_nodup_map proper.named (proper.known k there) known same
  exact outside there

theorem absent_of_unknown (proper : a.Proper) {id : Text} (unknown : id ∉ a.known.map Listener.id) :
    id ∉ a.subscribed.map Listener.id := by
  intro clash
  obtain ⟨k, there, rfl⟩ := List.mem_map.1 clash
  exact unknown (List.mem_map_of_mem (proper.known k there))

/-- Subscribing changes nothing, or brings in one who was not there. -/
theorem subscribe_cases (proper : a.Proper) (id : Text) (habit : Habit) :
    (a.subscribe id habit).Proper ∧
      (a.subscribe id habit = a ∨ ∃ l, l.id ∉ a.subscribed.map Listener.id ∧
        (a.subscribe id habit).subscribed = a.subscribed ++ [l]) := by
  unfold Audience.subscribe
  split
  · next l found =>
    have known : l ∈ a.known := List.mem_of_find?_eq_some found
    split
    · exact ⟨proper, .inl rfl⟩
    · next outside =>
      have absent := proper.absent known outside
      refine ⟨proper.added proper.named ?_ known absent rfl, .inr ⟨l, absent, rfl⟩⟩
      exact fun _ known => known
  · next not_found =>
    have unknown : id ∉ a.known.map Listener.id := by
      intro clash
      obtain ⟨k, known, rfl⟩ := List.mem_map.1 clash
      simpa using List.find?_eq_none.1 not_found k known
    have absent := proper.absent_of_unknown unknown
    have named : ((a.known ++ [Listener.mk id habit]).map Listener.id).Nodup :=
      nodup_joined proper.named unknown
    have kept : ∀ k ∈ a.known, k ∈ a.known ++ [Listener.mk id habit] :=
      fun _ known => List.mem_append_left _ known
    have last : Listener.mk id habit ∈ a.known ++ [⟨id, habit⟩] :=
      List.mem_append_right _ List.mem_cons_self
    exact ⟨proper.added named kept last absent rfl, .inr ⟨⟨id, habit⟩, absent, rfl⟩⟩

theorem unsubscribe (proper : a.Proper) (id : Text) : (a.unsubscribe id).Proper := by
  constructor
  · exact proper.named
  · intro l member
    exact proper.known l (List.mem_filter.1 member).1
  · exact proper.distinct.sublist (List.filter_sublist.map _)

end Proper

theorem arrivals_of_subset {b : Audience} (nobody_new : ∀ l ∈ b.subscribed, l ∈ a.subscribed) :
    arrivals a b = [] := by
  have none_new : b.subscribed.filter (fun l => decide (l ∉ a.subscribed)) = [] := by
    simpa [List.filter_eq_nil_iff] using nobody_new
  rw [arrivals, none_new, List.map_nil]

theorem dismissals_of_subset {b : Audience} (nobody_gone : ∀ l ∈ a.subscribed, l ∈ b.subscribed) :
    dismissals a b = [] := by
  have none_gone : a.subscribed.filter (fun l => decide (l ∉ b.subscribed)) = [] := by
    simpa [List.filter_eq_nil_iff] using nobody_gone
  rw [dismissals, none_gone, List.map_nil]

theorem arrivals_of_append {b : Audience} {l : Listener}
    (absent : l.id ∉ a.subscribed.map Listener.id)
    (subscribed : b.subscribed = a.subscribed ++ [l]) : arrivals a b = [.joined l] := by
  have new : l ∉ a.subscribed := fun there => absent (List.mem_map_of_mem there)
  have only_new : b.subscribed.filter (fun l => decide (l ∉ a.subscribed)) = [l] := by
    rw [subscribed, List.filter_append]
    simp [new]
  rw [arrivals, only_new, List.map_singleton]

/-- Hearing of a notice does to the audience what the moment tells, or brings in one more. -/
theorem hear_subscribed (proper : a.Proper) (l : Listener) (n : Notice) :
    (a.hear l n).1.Proper ∧
      ((a.hear l n).1.subscribed = after a.subscribed (.heard l n) ∨
        l.habit = .recruit ∧ ∃ m, m.id ∉ a.subscribed.map Listener.id ∧
          (a.hear l n).1.subscribed = a.subscribed ++ [m]) := by
  have noted : Proper { a with heard := a.heard ++ [(l.id, n)] } := proper.of_same rfl rfl
  unfold hear
  cases habit : l.habit with
  | stay | refuse => exact ⟨noted, .inl (by simp [after, habit])⟩
  | leave =>
    refine ⟨noted.unsubscribe l.id, .inl ?_⟩
    simp [after, habit, Audience.unsubscribe, without]
  | recruit =>
    obtain ⟨proper_after, same | added⟩ := noted.subscribe_cases (recruitOf l.id) .stay
    · refine ⟨proper_after, .inl ?_⟩
      simp [same, after, habit]
    · exact ⟨proper_after, .inr ⟨rfl, added⟩⟩

/-- One listener hears of a notice in its turn. -/
theorem hear_path (proper : a.Proper) (l : Listener) (n : Notice)
    (waiting : List (Listener × Notice)) :
    (a.hear l n).1.Proper ∧
      (∀ k ∈ a.subscribed, k.id ≠ l.id → k ∈ (a.hear l n).1.subscribed) ∧
      Hall.Path ⟨a.subscribed, (l, n) :: waiting⟩ (.heard l n :: arrivals a (a.hear l n).1)
        ⟨(a.hear l n).1.subscribed, waiting⟩ := by
  have turn := Hall.Moves.hears a.subscribed waiting l n
  obtain ⟨proper_after, subscribed | ⟨recruits, m, absent, subscribed⟩⟩ :=
    hear_subscribed proper l n
  · refine ⟨proper_after, ?_, ?_⟩
    · intro k there other
      rw [subscribed]
      exact mem_after_heard n there other
    · have nobody_new : ∀ k ∈ (a.hear l n).1.subscribed, k ∈ a.subscribed :=
        fun k there => mem_of_mem_after_heard (subscribed ▸ there)
      rw [arrivals_of_subset nobody_new, subscribed]
      exact .single turn
  · refine ⟨proper_after, ?_, ?_⟩
    · intro k there _
      rw [subscribed]
      exact List.mem_append_left _ there
    · have remain : after a.subscribed (.heard l n) = a.subscribed := by simp [after, recruits]
      rw [arrivals_of_append absent subscribed, subscribed]
      rw [remain] at turn
      exact .next turn (.single (.joins absent))

/-- Some of those who are there are told, each once. -/
theorem tell_path {ls : List Listener} (proper : a.Proper) (n : Notice)
    (there : ∀ l ∈ ls, l ∈ a.subscribed) (distinct : (ls.map Listener.id).Nodup) :
    (tell n ls a).1.Proper ∧
      Hall.Path ⟨a.subscribed, (reached ls).map fun l => (l, n)⟩ (telling n ls a)
        ⟨(tell n ls a).1.subscribed, []⟩ := by
  induction ls generalizing a with
  | nil => exact ⟨proper, .rest _⟩
  | cons l ls ih =>
    obtain ⟨others, distinct_rest⟩ := List.nodup_cons.1 distinct
    have answer := hear_snd a l n
    rw [tell, telling, reached]
    by_cases raises : l.habit = .refuse
    · obtain ⟨proper_after, -, path⟩ := hear_path proper l n []
      rcases heard : a.hear l n with ⟨b, result⟩
      rw [heard] at answer proper_after path
      obtain rfl : result = .error (.listener l.id) := by simpa [raises] using answer
      simp only [raises, if_true, Outcome.andThen_error, List.append_nil]
      exact ⟨proper_after, path⟩
    · obtain ⟨proper_after, kept, path⟩ :=
        hear_path proper l n ((reached ls).map fun l => (l, n))
      rcases heard : a.hear l n with ⟨b, result⟩
      rw [heard] at answer proper_after kept path
      obtain rfl : result = .ok () := by simpa [raises] using answer
      have there_after (k : Listener) (member : k ∈ ls) : k ∈ b.subscribed := by
        have other : k.id ≠ l.id := fun same => others (same ▸ List.mem_map_of_mem member)
        exact kept k (there k (List.mem_cons_of_mem l member)) other
      obtain ⟨proper_end, rest⟩ := ih proper_after there_after distinct_rest
      simp only [raises, if_false, Outcome.andThen_ok]
      exact ⟨proper_end, path.append rest⟩

theorem announce_path (proper : a.Proper) (n : Notice) :
    (a.announce n).1.Proper ∧
      Hall.Path ⟨a.subscribed, []⟩ (a.announcing n) ⟨(a.announce n).1.subscribed, []⟩ := by
  have noted : Proper { a with happened := a.happened ++ [n] } := proper.of_same rfl rfl
  obtain ⟨proper_after, path⟩ := tell_path noted n (fun _ => id) proper.distinct
  exact ⟨proper_after, .next (.gives a.subscribed n) path⟩

theorem announceAll_path (proper : a.Proper) (ns : List Notice) :
    (a.announceAll ns).Proper ∧
      Hall.Path ⟨a.subscribed, []⟩ (a.announcingAll ns) ⟨(a.announceAll ns).subscribed, []⟩ := by
  induction ns generalizing a with
  | nil => exact ⟨proper, .rest _⟩
  | cons n ns ih =>
    obtain ⟨proper_next, first⟩ := announce_path proper n
    obtain ⟨proper_after, rest⟩ := ih proper_next
    exact ⟨proper_after, first.append rest⟩

/-- Nobody goes when somebody subscribes. -/
theorem dismissals_subscribe (a : Audience) (id : Text) (habit : Habit) :
    dismissals a (a.subscribe id habit) = [] := by
  refine dismissals_of_subset fun l there => ?_
  unfold Audience.subscribe
  split
  · split
    · exact there
    · exact List.mem_append_left _ there
  · exact List.mem_append_left _ there

theorem subscribe_path (proper : a.Proper) (id : Text) (habit : Habit) :
    Hall.Path ⟨a.subscribed, []⟩
      (dismissals a (a.subscribe id habit) ++ arrivals a (a.subscribe id habit))
      ⟨(a.subscribe id habit).subscribed, []⟩ := by
  rw [dismissals_subscribe, List.nil_append]
  obtain ⟨-, same | ⟨l, absent, added⟩⟩ := proper.subscribe_cases id habit
  · rw [same, arrivals_of_subset fun _ there => there]
    exact .rest _
  · rw [arrivals_of_append absent added, added]
    exact .single (.joins absent)

theorem unsubscribe_path (proper : a.Proper) (id : Text) :
    Hall.Path ⟨a.subscribed, []⟩
      (dismissals a (a.unsubscribe id) ++ arrivals a (a.unsubscribe id))
      ⟨(a.unsubscribe id).subscribed, []⟩ := by
  have nobody_new : ∀ k ∈ (a.unsubscribe id).subscribed, k ∈ a.subscribed :=
    fun k member => (List.mem_filter.1 member).1
  rw [arrivals_of_subset nobody_new, List.append_nil]
  by_cases named : ∃ l ∈ a.subscribed, l.id = id
  · obtain ⟨l, there, rfl⟩ := named
    have nodup : a.subscribed.Nodup := proper.distinct.of_map _
    have gone : a.subscribed.filter (fun k => decide (k ∉ (a.unsubscribe l.id).subscribed)) = [l] :=
      calc
        _ = a.subscribed.filter (· == l) := by
          refine List.filter_congr fun k member => ?_
          by_cases same : k.id = l.id
          · obtain rfl := List.inj_on_of_nodup_map proper.distinct member there same
            simp [Audience.unsubscribe]
          · have other : k ≠ l := fun equal => same (equal ▸ rfl)
            simp [Audience.unsubscribe, member, same, other]
        _ = List.replicate (a.subscribed.count l) l := List.filter_beq ..
        _ = [l] := by rw [List.count_eq_one_of_mem nodup there, List.replicate_one]
    rw [dismissals, gone]
    exact .single (.goes there)
  · have nobody_gone : (a.unsubscribe id).subscribed = a.subscribed := by
      refine List.filter_eq_self.2 fun k member => ?_
      simpa using fun same => named ⟨k, member, same⟩
    rw [dismissals_of_subset fun _ there => nobody_gone ▸ there, nobody_gone]
    exact .rest _

@[simp] theorem hear_heard (a : Audience) (l : Listener) (n : Notice) :
    (a.hear l n).1.heard = a.heard ++ [(l.id, n)] := by
  unfold hear
  cases l.habit <;> simp [subscribe_heard, unsubscribe]

@[simp] theorem given_arrivals (a b : Audience) : given (arrivals a b) = [] := by
  simp [given, arrivals, notice?]

@[simp] theorem heardByName_arrivals (a b : Audience) : heardByName (arrivals a b) = [] := by
  simp [heardByName, arrivals, hearing?]

@[simp] theorem given_dismissals (a b : Audience) : given (dismissals a b) = [] := by
  simp [given, dismissals, notice?]

@[simp] theorem heardByName_dismissals (a b : Audience) : heardByName (dismissals a b) = [] := by
  simp [heardByName, dismissals, hearing?]

/-- The record holds what the history tells. -/
theorem telling_record (n : Notice) (ls : List Listener) (a : Audience) :
    given (telling n ls a) = [] ∧
      (tell n ls a).1.heard = a.heard ++ heardByName (telling n ls a) := by
  induction ls generalizing a with
  | nil => simp [tell, telling, given, heardByName]
  | cons l ls ih =>
    have heard := hear_heard a l n
    rw [tell, telling]
    rcases told : a.hear l n with ⟨b, e | u⟩ <;> simp only [told] at heard
    · simp [heard]
    · obtain ⟨silent, record⟩ := ih b
      simp [heard, silent, record]

theorem announcing_record (a : Audience) (n : Notice) :
    given (a.announcing n) = [n] ∧
      (a.announce n).1.heard = a.heard ++ heardByName (a.announcing n) := by
  obtain ⟨silent, record⟩ := telling_record n a.subscribed { a with happened := a.happened ++ [n] }
  constructor
  · rw [announcing, given_gave, silent]
  · exact record

theorem announceAll_record (a : Audience) (ns : List Notice) :
    given (a.announcingAll ns) = ns ∧ (a.announceAll ns).happened = a.happened ++ ns ∧
      (a.announceAll ns).heard = a.heard ++ heardByName (a.announcingAll ns) := by
  induction ns generalizing a with
  | nil => simp [announceAll, announcingAll, given, heardByName]
  | cons n ns ih =>
    obtain ⟨first, heard⟩ := announcing_record a n
    obtain ⟨rest, happened, heard_after⟩ := ih (a.announce n).1
    have again : a.announceAll (n :: ns) = (a.announce n).1.announceAll ns := rfl
    rw [again, announcingAll, happened, heard_after, heard]
    simp [first, rest]

/-- Nobody is dismissed by a notice. -/
theorem not_dismissed_telling (l : Listener) (n : Notice) (ls : List Listener) (a : Audience) :
    .dismissed l ∉ telling n ls a := by
  induction ls generalizing a with
  | nil => exact List.not_mem_nil
  | cons k ls ih =>
    rw [telling]
    rcases a.hear k n with ⟨b, e | u⟩
    · simp [arrivals]
    · simp [arrivals, ih b]

theorem not_dismissed_announcingAll (l : Listener) (ns : List Notice) (a : Audience) :
    .dismissed l ∉ a.announcingAll ns := by
  induction ns generalizing a with
  | nil => exact List.not_mem_nil
  | cons n ns ih =>
    have first : .dismissed l ∉ a.announcing n := by
      simpa [announcing] using not_dismissed_telling l n a.subscribed _
    rw [announcingAll, List.mem_append]
    exact not_or.2 ⟨first, ih _⟩

end Audience

end DrawPile
