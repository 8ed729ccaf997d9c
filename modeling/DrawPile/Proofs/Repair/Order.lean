import DrawPile.Proofs.Repair.Departure
import DrawPile.Proofs.Text.Order
import Mathlib.Data.List.Pairwise

/-! The order of issues. They are sorted by their places, and places are words: so the entries of one
deck are reported in the order of the digits of their numbers. Among the first ten entries that is the
order in which they stand, but the eleventh is reported before the third. -/
namespace DrawPile

namespace Issue

theorem notAfter_iff {a b : Issue} : notAfter a b = true ↔ ¬ b.place < a.place := by
  simp [notAfter]

theorem all_object_pairwise (members : Catalog Json) :
    (all (.object members)).Pairwise fun a b => ¬ b.place < a.place := by
  have trans (a b c : Issue) (first : notAfter a b = true) (second : notAfter b c = true) :
      notAfter a c = true := by
    rw [notAfter_iff] at *
    exact List.le_trans first second
  have total (a b : Issue) : (notAfter a b || notAfter b a) = true := by
    rw [Bool.or_eq_true, notAfter_iff, notAfter_iff]
    exact List.le_total _ _
  exact (List.pairwise_mergeSort trans total _).imp notAfter_iff.1

def position? (deck : Text) : Issue → Option Nat
  | .notText d index _ => if d = deck then some index else none
  | _ => none

theorem position?_eq_some_iff {deck : Text} {i : Nat} {issue : Issue} :
    issue.position? deck = some i ↔ ∃ v, issue = .notText deck i v := by
  cases issue with
  | notText d index v =>
    by_cases same : d = deck
    · subst same
      simp [position?]
    · simp [position?, same]
  | _ => simp [position?]

/-- The entries of a deck that issues are about, in the order of the issues. -/
def entriesReported (deck : Text) (data : Json) : List Nat := (all data).filterMap (position? deck)

theorem mem_entriesReported_iff {members : Catalog Json} {name : Text} {items : List Json} {i : Nat}
    (distinct : members.names.Nodup) (there : (name, .list items) ∈ members) :
    i ∈ entriesReported name (.object members) ↔
      ∃ v, items[i]? = some v ∧ ∀ t, v ≠ .text t := by
  rw [entriesReported, List.mem_filterMap]
  constructor
  · rintro ⟨issue, found, at_i⟩
    obtain ⟨v, rfl⟩ := position?_eq_some_iff.1 at_i
    cases mem_all_object_iff.1 found with
    | entry there' within no_text =>
      have same := List.inj_on_of_nodup_map distinct there there' rfl
      cases same
      exact ⟨v, within, no_text⟩
  · rintro ⟨v, within, no_text⟩
    exact ⟨_, mem_all_object_iff.2 (.entry there within no_text), position?_eq_some_iff.2 ⟨v, rfl⟩⟩

theorem entriesReported_pairwise {members : Catalog Json} {name : Text} {items : List Json}
    (distinct : members.names.Nodup) (there : (name, .list items) ∈ members) :
    (entriesReported name (.object members)).Pairwise fun i j => Text.ofNat i < Text.ofNat j := by
  have sorted := (nodup_all_object distinct).and (all_object_pairwise members)
  refine List.pairwise_filterMap.2 (sorted.imp_of_mem ?_)
  rintro a b found found' ⟨different, not_before⟩ i at_i j at_j
  obtain ⟨v, rfl⟩ := position?_eq_some_iff.1 at_i
  obtain ⟨w, rfl⟩ := position?_eq_some_iff.1 at_j
  have not_less : ¬ Text.ofNat j < Text.ofNat i := fun less =>
    not_before (List.cons_lt_cons_iff.2 (.inr ⟨rfl, List.cons_lt_cons_iff.2 (.inl less)⟩))
  by_contra not_after
  have digits : Text.ofNat i = Text.ofNat j := List.le_antisymm not_less not_after
  obtain rfl : i = j := Function.LeftInverse.injective Text.toNat_ofNat digits
  -- There is one item in each place of the list, so the two issues are the same.
  cases mem_all_object_iff.1 found with
  | entry there' within no_text =>
    cases mem_all_object_iff.1 found' with
    | entry there'' within' no_text' =>
      cases List.inj_on_of_nodup_map distinct there there' rfl
      cases List.inj_on_of_nodup_map distinct there there'' rfl
      cases within.symm.trans within'
      exact different rfl

/-- Which of two entries comes first in the order of digits: the one with the smaller number, unless
the larger number begins with digits that make a number smaller still. -/
def Precedes (i j : Nat) : Prop :=
  i < j ∧ i ≤ Text.firstDigits j i ∨ j < i ∧ Text.firstDigits i j < j

theorem precedes_of_lt {i j : Nat} (before : Text.ofNat i < Text.ofNat j) : Precedes i j := by
  rcases Nat.lt_trichotomy i j with less | rfl | more
  · have not_after : ¬ Text.ofNat j < Text.ofNat i := List.lt_asymm before
    rw [Text.ofNat_lt_ofNat_iff_firstDigits (Text.length_ofNat_mono (Nat.le_of_lt less))] at not_after
    exact .inl ⟨less, Nat.le_of_not_lt not_after⟩
  · exact absurd before (List.lt_irrefl _)
  · rw [Text.ofNat_lt_ofNat_iff_firstDigits (Text.length_ofNat_mono (Nat.le_of_lt more))] at before
    exact .inr ⟨more, before⟩

/-- The larger number does not begin with smaller digits, whichever of the two it is. -/
def Agree (i j : Nat) : Prop :=
  (i < j → i ≤ Text.firstDigits j i) ∧ (j < i → j ≤ Text.firstDigits i j)

instance : Std.Symm Agree where
  symm _ _ agree := agree.symm

theorem agree_self (i : Nat) : Agree i i :=
  ⟨fun less => absurd less (Nat.lt_irrefl i), fun less => absurd less (Nat.lt_irrefl i)⟩

theorem agree_of_small {i j : Nat} (i_small : i < 10) (j_small : j < 10) : Agree i j := by
  have whole (a b : Nat) (a_small : a < 10) (b_small : b < 10) : Text.firstDigits b a = b := by
    rw [Text.firstDigits, Text.ofNat_of_small a_small, Text.ofNat_of_small b_small]
    exact Nat.div_one b
  rw [Agree, whole i j i_small j_small, whole j i j_small i_small]
  exact ⟨Nat.le_of_lt, Nat.le_of_lt⟩

theorem increasing_iff {places : List Nat} (sorted : places.Pairwise Precedes) :
    places.Pairwise (· < ·) ↔ ∀ i ∈ places, ∀ j ∈ places, Agree i j := by
  constructor
  · intro increasing
    refine List.Pairwise.forall_of_forall (fun i _ => agree_self i) ?_
    refine (sorted.and increasing).imp ?_
    rintro i j ⟨⟨less, agrees⟩ | ⟨more, -⟩, increases⟩
    · exact ⟨fun _ => agrees, fun more => absurd more (Nat.lt_asymm less)⟩
    · exact absurd increases (Nat.lt_asymm more)
  · intro agree
    refine sorted.imp_of_mem ?_
    rintro i j i_there j_there (⟨less, -⟩ | ⟨more, begins⟩)
    · exact less
    · exact absurd ((agree i i_there j j_there).2 more) (Nat.not_le.2 begins)

/-- Each entry of a deck that is no text is reported once, and they are reported in the order of the
digits of their numbers. That is the order in which they stand exactly if no number among them
begins with smaller digits than a smaller one, so it is for a deck of up to ten entries. -/
theorem entries_reported_by_digits {members : Catalog Json} {name : Text} {items : List Json}
    (distinct : members.names.Nodup) (there : (name, .list items) ∈ members) :
    (∀ i, i ∈ entriesReported name (.object members) ↔
      ∃ v, items[i]? = some v ∧ ∀ t, v ≠ .text t) ∧
    (entriesReported name (.object members)).Nodup ∧
    (entriesReported name (.object members)).Pairwise Precedes ∧
    ((entriesReported name (.object members)).Pairwise (· < ·) ↔
      ∀ i ∈ entriesReported name (.object members), ∀ j ∈ entriesReported name (.object members),
        Agree i j) ∧
    (items.length ≤ 10 → (entriesReported name (.object members)).Pairwise (· < ·)) := by
  have reported (i : Nat) := mem_entriesReported_iff (i := i) distinct there
  have sorted := (entriesReported_pairwise distinct there).imp precedes_of_lt
  have different {i j : Nat} : Precedes i j → i ≠ j := by
    rintro (⟨less, -⟩ | ⟨more, -⟩)
    · exact Nat.ne_of_lt less
    · exact Nat.ne_of_gt more
  refine ⟨reported, sorted.imp different, sorted, increasing_iff sorted, fun short => ?_⟩
  have small (i : Nat) (there : i ∈ entriesReported name (.object members)) : i < 10 := by
    obtain ⟨v, within, -⟩ := (reported i).1 there
    exact Nat.lt_of_lt_of_le (List.getElem?_eq_some_iff.1 within).1 short
  exact (increasing_iff sorted).2 fun i i_there j j_there =>
    agree_of_small (small i i_there) (small j j_there)

def eleven : Catalog Json :=
  [("d".toList, .list ([.text [], .text [], .null] ++ List.replicate 7 (.text []) ++ [.int 3]))]

theorem entriesReported_eleven : entriesReported "d".toList (.object eleven) = [10, 2] := by
  have order : notAfter (.notText ['d'] 2 .null) (.notText ['d'] 10 (.int 3)) = false := by decide
  simp [entriesReported, all, eleven, ofDeck, ofEntries, List.mergeSort, order, position?]

theorem entries_reported_by_digits_of_eleven :
    eleven.names.Nodup ∧ entriesReported "d".toList (.object eleven) = [10, 2] ∧
      ¬ Agree 2 10 ∧ (entriesReported "d".toList (.object eleven)).Pairwise Precedes := by
  have distinct : eleven.names.Nodup := by decide
  obtain ⟨-, -, sorted, -, -⟩ := entries_reported_by_digits distinct List.mem_cons_self
  refine ⟨distinct, entriesReported_eleven, fun agree => ?_, sorted⟩
  exact absurd (agree.1 (by decide)) (by decide)

theorem entries_out_of_order :
    eleven.names.Nodup ∧ ¬ (entriesReported "d".toList (.object eleven)).Pairwise (· < ·) := by
  rw [entriesReported_eleven]
  exact ⟨by decide, by decide⟩

end Issue

end DrawPile
