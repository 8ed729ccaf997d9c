import DrawPile.Store.Deck
import Mathlib.Data.List.Induction
import Mathlib.Data.List.Nodup

/-! When names stand against each other. A name without conflicts is one whose base name no other
has, and a list without clashes is one whose base names are distinct. The first free numbered name
is always found. -/
namespace DrawPile.Name

/-- Names no two of which have the same base name. -/
def Distinct (names : List Text) : Prop := (names.map base).Nodup

instance (names : List Text) : Decidable (Distinct names) :=
  inferInstanceAs (Decidable (names.map base).Nodup)

@[simp] theorem base_hide (name : Text) : base (hide name) = name := rfl

theorem hide_ne (name : Text) : hide name ≠ name := by
  intro same
  exact absurd (congrArg List.length same) (by simp [hide])

theorem hide_base {name : Text} (hidden : isHidden name = true) : hide (base name) = name := by
  cases name with
  | nil => simp [isHidden] at hidden
  | cons c name =>
    have mark : c = hiddenMark := by simpa [isHidden] using hidden
    simp [base, isHidden, hide, mark]

theorem base_of_visible {name : Text} (visible : isHidden name = false) : base name = name := by
  simp [base, visible]

theorem conflict?_eq_none_iff {name other : Text} :
    conflict? name other = none ↔ base other ≠ base name := by
  unfold conflict?
  by_cases same : other = name
  · simp [same]
  · by_cases twins : base other = base name <;> simp [same, twins]

theorem conflicts_eq_nil_iff {name : Text} {existing : List Text} {ignored : Option Text} :
    conflicts name existing ignored = [] ↔
      ∀ other ∈ existing, some other ≠ ignored → base other ≠ base name := by
  simp only [conflicts, List.filterMap_eq_nil_iff, List.mem_filter, decide_eq_true_eq,
    conflict?_eq_none_iff, and_imp]

theorem not_mem_base_of_no_conflicts {name : Text} {existing : List Text}
    (free : conflicts name existing none = []) : base name ∉ existing.map base := by
  intro member
  obtain ⟨other, present, same⟩ := List.mem_map.1 member
  exact conflicts_eq_nil_iff.1 free other present (by simp) same

theorem clashesAfter_eq_nil_iff {earlier names : List Text} :
    clashesAfter earlier names = [] ↔
      Distinct names ∧ ∀ name ∈ names, ∀ before ∈ earlier, base before ≠ base name := by
  induction names generalizing earlier with
  | nil => simp [clashesAfter, Distinct]
  | cons name names ih =>
    rw [clashesAfter]
    cases found : earlier.find? fun other => base other == base name with
    | some first =>
      have same : base first = base name := by simpa using List.find?_some found
      have member : first ∈ earlier := List.mem_of_find?_eq_some found
      simp only [reduceCtorEq, List.mem_cons, false_iff, not_and]
      exact fun _ apart => apart name (.inl rfl) first member same
    | none =>
      simp only [List.find?_eq_none, beq_iff_eq] at found
      simp only [ih, Distinct, List.map_cons, List.nodup_cons, List.mem_append, List.mem_cons,
        List.not_mem_nil, or_false, List.mem_map]
      constructor
      · rintro ⟨distinct, apart⟩
        refine ⟨⟨?_, distinct⟩, ?_⟩
        · rintro ⟨other, present, same⟩
          exact apart other present name (.inr rfl) same.symm
        · rintro other (rfl | present) before member
          · exact found before member
          · exact apart other present before (.inl member)
      · rintro ⟨⟨fresh, distinct⟩, apart⟩
        refine ⟨distinct, ?_⟩
        rintro other present before (member | rfl)
        · exact apart other (.inr present) before member
        · exact fun same => fresh ⟨other, present, same.symm⟩

theorem clashes_eq_nil_iff {names : List Text} : clashes names = [] ↔ Distinct names := by
  simp [clashes, clashesAfter_eq_nil_iff]

theorem clashesAfter_append (earlier front back : List Text) :
    clashesAfter earlier (front ++ back) =
      clashesAfter earlier front ++ clashesAfter (earlier ++ front) back := by
  induction front generalizing earlier with
  | nil => simp [clashesAfter]
  | cons name front ih =>
    have shifted : earlier ++ [name] ++ front = earlier ++ name :: front := by simp
    simp only [List.cons_append, clashesAfter, ih, shifted]
    cases earlier.find? fun other => base other == base name <;> rfl

/-- The first name whose base name an earlier one has. -/
def FirstClash (names : List Text) (name : Text) : Prop :=
  ∃ front back, names = front ++ name :: back ∧ Distinct front ∧ base name ∈ front.map base

namespace FirstClash

/-- The first clash found is that of the first name that comes too late. -/
theorem clashes {names : List Text} {name : Text} (clash : FirstClash names name) :
    ∃ first later, Name.clashes names = (first, name) :: later := by
  obtain ⟨front, back, rfl, distinct, shared⟩ := clash
  have quiet : clashesAfter [] front = [] := clashes_eq_nil_iff.2 distinct
  rw [Name.clashes, clashesAfter_append, quiet, List.nil_append, List.nil_append, clashesAfter]
  cases found : front.find? fun other => base other == base name with
  | some first => exact ⟨first, _, rfl⟩
  | none =>
    obtain ⟨other, present, same⟩ := List.mem_map.1 shared
    exact absurd (by simpa using same) (List.find?_eq_none.1 found other present)

end FirstClash

namespace Distinct

theorem nodup {names : List Text} (distinct : Distinct names) :
    names.Nodup := List.Nodup.of_map base distinct

/-- A visible name and its hidden form have one base name. -/
theorem not_mem_hide {names : List Text} (distinct : Distinct names) {name : Text}
    (present : name ∈ names) (visible : isHidden name = false) : hide name ∉ names := by
  intro twin
  have same : base (hide name) = base name := by rw [base_hide, base_of_visible visible]
  exact hide_ne name (List.inj_on_of_nodup_map distinct twin present same)

end Distinct

end DrawPile.Name

namespace DrawPile.Store

theorem base_append {name suffix : Text} (plain : suffix.head? ≠ some Name.hiddenMark) :
    Name.base (name ++ suffix) = Name.base name ++ suffix := by
  cases name with
  | nil => simp [Name.base, Name.isHidden, plain]
  | cons c name =>
    by_cases hidden : c = Name.hiddenMark <;> simp [Name.base, Name.isHidden, hidden]

/-- What a numbered name has behind the name. -/
def numberMark : Nat → Text
  | 0 => []
  | n + 1 => '(' :: Text.ofNat (n + 1) ++ [')']

theorem numbered_eq (name : Text) (n : Nat) : numbered name n = name ++ numberMark n := by
  cases n <;> simp [numbered, numberMark]

theorem ofNat_injective : Function.Injective Text.ofNat := by
  intro m n same
  have digits := congrArg (Nat.ofDigitChars 10 · 0) same
  simpa [Text.ofNat] using digits

theorem numberMark_injective : Function.Injective numberMark := by
  intro m n same
  cases m <;> cases n <;> simp_all [numberMark, ofNat_injective.eq_iff]

theorem base_numbered (name : Text) (n : Nat) :
    Name.base (numbered name n) = Name.base name ++ numberMark n := by
  rw [numbered_eq]
  apply base_append
  cases n <;> simp [numberMark, Name.hiddenMark]

/-- There are more numbers than names, and no two of them have the same base name: so the names cannot
all be in the way. -/
theorem exists_free_number (existing : List Text) (name : Text) :
    ∃ n ≤ existing.length, Name.conflicts (numbered name n) existing none = [] := by
  by_contra none_free
  push Not at none_free
  have taken : ((List.range (existing.length + 1)).map fun n => Name.base (numbered name n)) ⊆
      existing.map Name.base := by
    intro base member
    obtain ⟨n, below, rfl⟩ := List.mem_map.1 member
    have refused := none_free n (Nat.lt_succ_iff.1 (List.mem_range.1 below))
    rw [ne_eq, Name.conflicts_eq_nil_iff] at refused
    push Not at refused
    obtain ⟨other, present, -, same⟩ := refused
    exact same ▸ List.mem_map_of_mem present
  have distinct : ((List.range (existing.length + 1)).map
      fun n => Name.base (numbered name n)).Nodup := by
    refine List.nodup_range.map fun m n same => ?_
    simp only [base_numbered] at same
    exact numberMark_injective (List.append_cancel_left same)
  have bound := distinct.length_le_of_subset taken
  simp only [List.length_map, List.length_range] at bound
  omega

/-- The name chosen has the least number that will do. -/
theorem freeName_least (existing : List Text) (name : Text) :
    ∃ k ≤ existing.length, freeName existing name = numbered name k ∧
      Name.conflicts (numbered name k) existing none = [] ∧
      ∀ n < k, Name.conflicts (numbered name n) existing none ≠ [] := by
  unfold freeName
  simp only [List.find?_map]
  cases found : (List.range (existing.length + 1)).find?
      ((fun c => (Name.conflicts c existing none).isEmpty) ∘ numbered name) with
  | some k =>
    simp only [List.find?_range_eq_some, Function.comp_apply, List.isEmpty_iff, List.mem_range,
      Bool.not_eq_true', List.isEmpty_eq_false_iff] at found
    obtain ⟨free, below, earlier⟩ := found
    exact ⟨k, by omega, rfl, free, earlier⟩
  | none =>
    obtain ⟨n, within, free⟩ := exists_free_number existing name
    have refused := List.find?_eq_none.1 found n (List.mem_range.2 (by omega))
    simp [free] at refused

theorem conflicts_freeName (existing : List Text) (name : Text) :
    Name.conflicts (freeName existing name) existing none = [] := by
  obtain ⟨k, -, chosen, free, -⟩ := freeName_least existing name
  rw [chosen, free]

end DrawPile.Store
