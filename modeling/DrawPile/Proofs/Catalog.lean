import DrawPile.Catalog

/-! Look-ups after a change of a catalog. A name that is there splits the catalog around its first
entry, and to put a value under it changes that entry alone. -/
namespace DrawPile.Catalog
variable {β : Type} {c : Catalog β} {name : Text} {v : β}

@[simp] theorem names_nil : names ([] : Catalog β) = [] := rfl

@[simp] theorem names_cons (e : Text × β) (c : Catalog β) : names (e :: c) = e.1 :: names c := rfl

@[simp] theorem names_append (c d : Catalog β) : names (c ++ d) = names c ++ names d :=
  List.map_append

theorem ne_of_not_mem {e : Text × β} (absent : name ∉ names c) (member : e ∈ c) : e.1 ≠ name :=
  fun same => absent (same ▸ List.mem_map_of_mem member)

theorem put_split {front back : Catalog β} {w : β} (absent : name ∉ names front) :
    put name w (front ++ (name, v) :: back) = front ++ (name, w) :: back := by
  induction front with
  | nil => simp [put]
  | cons e front ih =>
    simp only [names_cons, List.mem_cons, not_or] at absent
    simp [put, Ne.symm absent.1, ih absent.2]

theorem split_of_get? (found : get? name c = some v) :
    ∃ front back, c = front ++ (name, v) :: back ∧ name ∉ names front := by
  induction c with
  | nil => cases found
  | cons e c ih =>
    rw [get?] at found
    split at found
    · next same =>
      cases found
      exact ⟨[], c, by simp [← same], by simp⟩
    · next different =>
      obtain ⟨front, back, rfl, absent⟩ := ih found
      exact ⟨e :: front, back, rfl, by simp [Ne.symm different, absent]⟩

theorem absent_of_nodup {front back : Catalog β}
    (distinct : (names (front ++ (name, v) :: back)).Nodup) :
    name ∉ names front ∧ name ∉ names back := by
  rw [names_append, names_cons, List.nodup_append, List.nodup_cons] at distinct
  obtain ⟨-, ⟨absent_after, -⟩, apart⟩ := distinct
  exact ⟨fun member => apart name member name List.mem_cons_self rfl, absent_after⟩

/-- Under distinct names the entry that is found is the only one of its name. -/
theorem split_of_nodup (distinct : (names c).Nodup) (found : get? name c = some v) :
    ∃ front back, c = front ++ (name, v) :: back ∧ name ∉ names front ∧ name ∉ names back := by
  obtain ⟨front, back, rfl, -⟩ := split_of_get? found
  exact ⟨front, back, rfl, absent_of_nodup distinct⟩

theorem get?_eq_none_iff : get? name c = none ↔ name ∉ names c := by
  induction c with
  | nil => simp [get?]
  | cons e c ih =>
    by_cases same : e.1 = name
    · simp [get?, same]
    · simp [get?, same, ih, Ne.symm same]

theorem mem_names_of_get? (found : get? name c = some v) : name ∈ names c := by
  obtain ⟨front, back, rfl, _⟩ := split_of_get? found
  simp

theorem get?_map {γ : Type} (f : β → γ) (c : Catalog β) (name : Text) :
    get? name (c.map fun e => (e.1, f e.2)) = (get? name c).map f := by
  induction c with
  | nil => rfl
  | cons e c ih => by_cases same : e.1 = name <;> simp [get?, same, ih]

theorem put_of_not_mem (absent : name ∉ names c) : put name v c = c ++ [(name, v)] := by
  induction c with
  | nil => rfl
  | cons e c ih =>
    simp only [names_cons, List.mem_cons, not_or] at absent
    simp [put, Ne.symm absent.1, ih absent.2]

theorem exists_of_mem_names (present : name ∈ names c) : ∃ v, get? name c = some v :=
  Option.ne_none_iff_exists'.1 (mt get?_eq_none_iff.1 (not_not_intro present))

theorem names_put_of_mem (present : name ∈ names c) : names (put name v c) = names c := by
  obtain ⟨u, found⟩ := exists_of_mem_names present
  obtain ⟨front, back, rfl, absent⟩ := split_of_get? found
  simp [put_split absent]

theorem get?_put_self : get? name (put name v c) = some v := by
  induction c with
  | nil => simp [put, get?]
  | cons e c ih => by_cases same : e.1 = name <;> simp [put, get?, same, ih]

theorem get?_put_of_ne {other : Text} (different : other ≠ name) :
    get? other (put name v c) = get? other c := by
  induction c with
  | nil => simp [put, get?, Ne.symm different]
  | cons e c ih =>
    by_cases same : e.1 = name
    · simp [put, get?, same, Ne.symm different]
    · simp [put, get?, same, ih]

theorem erase_of_not_mem (absent : name ∉ names c) : erase name c = c := by
  rw [erase, List.filter_eq_self]
  intro e member
  simpa using ne_of_not_mem absent member

theorem erase_split {front back : Catalog β} (absent : name ∉ names front)
    (absent_after : name ∉ names back) :
    erase name (front ++ (name, v) :: back) = front ++ back := by
  have before := erase_of_not_mem absent
  have after := erase_of_not_mem absent_after
  simp only [erase] at before after
  simp only [erase, List.filter_append, List.filter_cons, before, after]
  simp

theorem putAll_of_nodup {more : Catalog β} (distinct : (names (c ++ more)).Nodup) :
    putAll c more = c ++ more := by
  induction more generalizing c with
  | nil => simp [putAll]
  | cons e more ih =>
    have absent : e.1 ∉ names c := by
      rw [names_append, names_cons, List.nodup_append] at distinct
      exact fun member => distinct.2.2 e.1 member e.1 List.mem_cons_self rfl
    have rest : putAll (c ++ [e]) more = c ++ [e] ++ more := ih (by simpa using distinct)
    simpa [putAll, put_of_not_mem absent] using rest

theorem ofList_of_nodup (distinct : (names c).Nodup) : ofList c = c :=
  putAll_of_nodup distinct

end DrawPile.Catalog
