import DrawPile.Proofs.Name

/-! The clashes of a list of names beside the conflicts of one name with others. The scan of a whole
list and the checks of its names one by one come to the same, and the scan finds every name that comes
too late, with the earliest name it stands against. -/
namespace DrawPile.Name
variable {names : List Text} {name : Text}

/-- Names added one at a time, each of which had no conflict with those before it. -/
inductive Admitted : List Text → Prop
  | empty : Admitted []
  | next {names : List Text} {name : Text} (before : Admitted names)
      (free : conflicts name names none = []) : Admitted (names ++ [name])

/-- A name whose base name an earlier one has. -/
def Late (names : List Text) (name : Text) : Prop :=
  ∃ front back, names = front ++ name :: back ∧ base name ∈ front.map base

/-- A name that comes too late, and the earliest that has its base name. -/
def Clash (names : List Text) (first name : Text) : Prop :=
  ∃ front between back, names = front ++ first :: (between ++ name :: back) ∧
    base first = base name ∧ base name ∉ front.map base

theorem conflicts_all_eq_nil_iff : conflicts name names none = [] ↔ base name ∉ names.map base := by
  constructor
  · exact not_mem_base_of_no_conflicts
  · intro fresh
    apply conflicts_eq_nil_iff.2
    intro other present _ same
    exact fresh (List.mem_map.2 ⟨other, present, same⟩)

theorem distinct_append_singleton :
    Distinct (names ++ [name]) ↔ Distinct names ∧ base name ∉ names.map base := by
  have turned : Distinct (names ++ [name]) ↔ (base name :: names.map base).Nodup := by
    simp only [Distinct, List.map_append, List.map_singleton]
    exact List.nodup_append_comm
  exact turned.trans (List.nodup_cons.trans and_comm)

theorem admitted_iff : Admitted names ↔ Distinct names := by
  constructor
  · intro admitted
    induction admitted with
    | empty => exact List.nodup_nil
    | next _ free ih => exact distinct_append_singleton.2 ⟨ih, conflicts_all_eq_nil_iff.1 free⟩
  · intro distinct
    induction names using List.reverseRecOn with
    | nil => exact .empty
    | append_singleton names name ih =>
      have parts := distinct_append_singleton.1 distinct
      exact .next (ih parts.1) (conflicts_all_eq_nil_iff.2 parts.2)

theorem no_conflicts_iff (nodup : names.Nodup) :
    (∀ name ∈ names, conflicts name names (some name) = []) ↔ Distinct names := by
  constructor
  · intro free
    apply nodup.map_on
    intro other present name member same
    by_contra apart
    have away : some other ≠ some name := fun equal => apart (Option.some.inj equal)
    exact conflicts_eq_nil_iff.1 (free name member) other present away same
  · intro distinct name member
    apply conflicts_eq_nil_iff.2
    intro other present away same
    exact away (congrArg some (List.inj_on_of_nodup_map distinct present member same))

theorem mem_clashesAfter_cons {first : Text} {earlier rest : List Text} {head : Text} :
    (first, name) ∈ clashesAfter earlier (head :: rest) ↔
      (head = name ∧ earlier.find? (fun other => base other == base name) = some first) ∨
        (first, name) ∈ clashesAfter (earlier ++ [head]) rest := by
  rw [clashesAfter]
  cases found : earlier.find? fun other => base other == base head with
  | some other =>
    simp only [List.mem_cons, Prod.mk.injEq]
    constructor
    · rintro (⟨rfl, rfl⟩ | later)
      · exact .inl ⟨rfl, found⟩
      · exact .inr later
    · rintro (⟨rfl, again⟩ | later)
      · exact .inl ⟨Option.some.inj (again.symm.trans found), rfl⟩
      · exact .inr later
  | none =>
    constructor
    · exact .inr
    · rintro (⟨rfl, again⟩ | later)
      · exact absurd (again.symm.trans found) (Option.some_ne_none first)
      · exact later

/-- The scan finds a name where a search of the names before it does. -/
theorem mem_clashesAfter_iff {first : Text} {earlier : List Text} :
    (first, name) ∈ clashesAfter earlier names ↔
      ∃ front back, names = front ++ name :: back ∧
        (earlier ++ front).find? (fun other => base other == base name) = some first := by
  induction names generalizing earlier with
  | nil => simp [clashesAfter]
  | cons head rest ih =>
    rw [mem_clashesAfter_cons, ih]
    constructor
    · rintro (⟨rfl, found⟩ | ⟨front, back, rfl, found⟩)
      · exact ⟨[], rest, rfl, by simpa using found⟩
      · exact ⟨head :: front, back, rfl, by simpa using found⟩
    · rintro ⟨front, back, split, found⟩
      cases front with
      | nil =>
        obtain ⟨rfl, -⟩ := List.cons.inj split
        exact .inl ⟨rfl, by simpa using found⟩
      | cons _ front =>
        obtain ⟨rfl, rest_split⟩ := List.cons.inj split
        exact .inr ⟨front, back, rest_split, by simpa using found⟩

theorem mem_clashes_iff {first : Text} :
    (first, name) ∈ clashes names ↔ Clash names first name := by
  simp only [clashes, mem_clashesAfter_iff, List.nil_append, List.find?_eq_some_iff_append,
    beq_iff_eq]
  constructor
  · rintro ⟨front, back, rfl, same, before, between, rfl, apart⟩
    have fresh : base name ∉ before.map base := by
      intro member
      obtain ⟨other, present, equal⟩ := List.mem_map.1 member
      simpa [equal] using apart other present
    exact ⟨before, between, back, by simp, same, fresh⟩
  · rintro ⟨before, between, back, rfl, same, fresh⟩
    have apart : ∀ other ∈ before, (!base other == base name) = true := by
      intro other present
      have away : base other ≠ base name := fun equal =>
        fresh (List.mem_map.2 ⟨other, present, equal⟩)
      simpa using away
    exact ⟨before ++ first :: between, back, by simp, same, before, between, rfl, apart⟩

theorem Clash.late {first : Text} (clash : Clash names first name) : Late names name := by
  obtain ⟨front, between, back, rfl, same, -⟩ := clash
  exact ⟨front ++ first :: between, back, by simp, by simp [same]⟩

theorem Late.exists_clash (late : Late names name) : ∃ first, Clash names first name := by
  obtain ⟨front, back, split, shared⟩ := late
  obtain ⟨other, present, same⟩ := List.mem_map.1 shared
  have some_first : (front.find? fun other => base other == base name).isSome = true :=
    List.find?_isSome.2 ⟨other, present, by simpa using same⟩
  obtain ⟨first, found⟩ := Option.isSome_iff_exists.1 some_first
  exact ⟨first, mem_clashes_iff.1 (mem_clashesAfter_iff.2 ⟨front, back, split, found⟩)⟩

theorem Late.not_earliest (late : Late names name) (nodup : names.Nodup) (other : Text) :
    ¬ Clash names name other := by
  obtain ⟨front, back, rfl, shared⟩ := late
  rintro ⟨before, between, rest, split, same, fresh⟩
  have once : name ∉ front ∧ name ∉ back := by
    simpa using (List.nodup_cons.1 (List.nodup_middle.1 nodup)).1
  have fronts := ((List.append_cons_inj_of_notMem once.1 once.2).1 split).1
  rw [fronts, same] at shared
  exact fresh shared

theorem clashesAfter_sublist (earlier names : List Text) :
    ((clashesAfter earlier names).map Prod.snd).Sublist names := by
  induction names generalizing earlier with
  | nil => exact List.Sublist.slnil
  | cons name names ih =>
    rw [clashesAfter]
    cases earlier.find? fun other => base other == base name with
    | some first => exact (ih _).cons_cons name
    | none => exact (ih _).cons name

/-- Of the pairs found, one holds a name that comes too late. -/
theorem clashes_filter_eq {first : Text} (nodup : names.Nodup) (clash : Clash names first name) :
    ((clashes names).filter fun pair => pair.1 == name || pair.2 == name) = [(first, name)] := by
  have seconds : ((clashes names).map Prod.snd).Nodup := (clashesAfter_sublist [] names).nodup nodup
  have found : (first, name) ∈ clashes names := mem_clashes_iff.2 clash
  apply List.perm_singleton.1
  apply (List.perm_ext_iff_of_nodup (seconds.of_map.filter _) (List.nodup_singleton _)).2
  rintro ⟨one, two⟩
  simp only [List.mem_filter, Bool.or_eq_true, beq_iff_eq, List.mem_singleton]
  constructor
  · rintro ⟨member, rfl | rfl⟩
    · exact absurd (mem_clashes_iff.1 member) (clash.late.not_earliest nodup two)
    · exact List.inj_on_of_nodup_map seconds member found rfl
  · rintro ⟨rfl, rfl⟩
    exact ⟨found, .inr rfl⟩

theorem eq_or_eq_hide_of_base {shared : Text} (same : base name = shared) :
    name = shared ∨ name = hide shared := by
  cases hidden : isHidden name with
  | false => exact .inl ((base_of_visible hidden).symm.trans same)
  | true => exact .inr ((hide_base hidden).symm.trans (congrArg hide same))

/-- Two names at most have one base name: that name itself and its hidden form. -/
theorem sharing_le_two (nodup : names.Nodup) (shared : Text) :
    (names.filter fun name => base name == shared).length ≤ 2 := by
  have within : (names.filter fun name => base name == shared) ⊆ [shared, hide shared] := by
    intro name member
    have same : base name = shared := by simpa using (List.mem_filter.1 member).2
    simpa using eq_or_eq_hide_of_base same
  exact (nodup.filter _).length_le_of_subset within

/-- The scan of a list, the check of its names one by one and the check of each name as it is added
agree. Each name that comes too late is in one pair, with the earliest name it stands against, and there
are no other pairs; two names at most share a base name. -/
theorem clash_checks_agree (names : List Text) (nodup : names.Nodup) :
    (clashes names = [] ↔ ∀ name ∈ names, conflicts name names (some name) = []) ∧
    (clashes names = [] ↔ Admitted names) ∧
    (∀ name, Late names name → ∃ first, Clash names first name ∧
      ((clashes names).filter fun pair => pair.1 == name || pair.2 == name) = [(first, name)]) ∧
    (∀ first name, (first, name) ∈ clashes names → Late names name ∧ Clash names first name) ∧
    ∀ shared, (names.filter fun name => base name == shared).length ≤ 2 := by
  refine ⟨?one_by_one, ?as_added, ?each_late, ?no_other, sharing_le_two nodup⟩
  case one_by_one => exact clashes_eq_nil_iff.trans (no_conflicts_iff nodup).symm
  case as_added => exact clashes_eq_nil_iff.trans admitted_iff.symm
  case each_late =>
    intro name late
    obtain ⟨first, clash⟩ := late.exists_clash
    exact ⟨first, clash, clashes_filter_eq nodup clash⟩
  case no_other =>
    intro first name found
    have clash := mem_clashes_iff.1 found
    exact ⟨clash.late, clash⟩

def twins : List Text :=
  ["a".toList, "_b".toList, "_a".toList, "__b".toList, "b".toList]

theorem clash_checks_agree_of_twins :
    twins.Nodup ∧ ¬ Admitted twins ∧
      (¬ ∀ name ∈ twins, conflicts name twins (some name) = []) ∧
      clashes twins = [("a".toList, "_a".toList), ("_b".toList, "b".toList)] ∧
      Late twins "_a".toList ∧ Clash twins "_b".toList "b".toList ∧
      (twins.filter fun name => base name == "b".toList).length ≤ 2 := by
  have nodup : twins.Nodup := by decide
  obtain ⟨one_by_one, as_added, -, no_other, few⟩ := clash_checks_agree twins nodup
  have found : clashes twins = [("a".toList, "_a".toList), ("_b".toList, "b".toList)] := by decide
  have some_found : clashes twins ≠ [] := by simp [found]
  have first_pair := no_other "a".toList "_a".toList (by simp [found])
  have second_pair := no_other "_b".toList "b".toList (by simp [found])
  exact ⟨nodup, fun admitted => some_found (as_added.2 admitted),
    fun free => some_found (one_by_one.2 free), found, first_pair.1, second_pair.2, few _⟩

end DrawPile.Name
