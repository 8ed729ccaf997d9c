import DrawPile.Proofs.Name
import DrawPile.Proofs.Reference.Grammar

/-! Names that a reference can ask for. The name in a reference is trimmed before the look-up, so it
has no blank at either end. A number behind a name, and the mark in front of it, leave it usable; to
take the mark away may not. -/
namespace DrawPile

namespace Text

theorem isBlank_head?_trim {t : Text} {c : Char} (first : (trim t).head? = some c) :
    isBlank c = false := by
  obtain ⟨back, split⟩ : ∃ back, t.dropWhile isBlank = trim t ++ back := by
    have kept := List.takeWhile_append_dropWhile (p := isBlank) (l := (t.dropWhile isBlank).reverse)
    refine ⟨((t.dropWhile isBlank).reverse.takeWhile isBlank).reverse, ?_⟩
    rw [trim, trimOf, ← List.reverse_append, kept, List.reverse_reverse]
  have stops := List.head?_dropWhile_not isBlank t
  rw [split, List.head?_append, first] at stops
  exact stops

theorem isBlank_getLast?_trim {t : Text} {c : Char} (last : (trim t).getLast? = some c) :
    isBlank c = false := by
  have stops := List.head?_dropWhile_not isBlank (t.dropWhile isBlank).reverse
  rw [trim, trimOf, List.getLast?_reverse] at last
  rw [last] at stops
  exact stops

theorem dropWhile_isBlank_eq_self {t : Text} (front : ∀ c, t.head? = some c → isBlank c = false) :
    t.dropWhile isBlank = t := by
  cases t with
  | nil => rfl
  | cons c t => exact List.dropWhile_cons_of_neg (by simp [front c rfl])

theorem trim_eq_self {t : Text} (front : ∀ c, t.head? = some c → isBlank c = false)
    (back : ∀ c, t.getLast? = some c → isBlank c = false) : trim t = t := by
  have turned : ∀ c, t.reverse.head? = some c → isBlank c = false := by
    simpa only [List.head?_reverse] using back
  rw [trim, trimOf, dropWhile_isBlank_eq_self front, dropWhile_isBlank_eq_self turned,
    List.reverse_reverse]

end Text

namespace Name
variable {name : Text}

/-- A name that is not empty and has no blank at either end. -/
structure Usable (name : Text) : Prop where
  filled : name ≠ []
  front : ∀ c, name.head? = some c → Text.isBlank c = false
  back : ∀ c, name.getLast? = some c → Text.isBlank c = false

theorem usable_trim {t : Text} (filled : Text.trim t ≠ []) : Usable (Text.trim t) where
  filled := filled
  front := fun _ => Text.isBlank_head?_trim
  back := fun _ => Text.isBlank_getLast?_trim

/-- The usable names are those that trimming leaves as they are, the empty one apart. -/
theorem usable_iff : Usable name ↔ name ≠ [] ∧ Text.trim name = name := by
  constructor
  · intro usable
    exact ⟨usable.filled, Text.trim_eq_self usable.front usable.back⟩
  · rintro ⟨filled, trimmed⟩
    have usable := usable_trim (t := name) (trimmed.symm ▸ filled)
    rwa [trimmed] at usable

instance (name : Text) : Decidable (Usable name) := decidable_of_iff _ usable_iff.symm

theorem usable_hide_iff :
    Usable (hide name) ↔ ∀ c, name.getLast? = some c → Text.isBlank c = false := by
  have mark : Text.isBlank hiddenMark = false := by decide
  constructor
  · intro usable c last
    exact usable.back c (by rw [hide, List.getLast?_cons, last]; rfl)
  · intro back
    refine ⟨List.cons_ne_nil _ _, ?_, ?_⟩
    · rintro _ ⟨⟩
      exact mark
    · intro c last
      rw [hide, List.getLast?_cons] at last
      cases found : name.getLast? with
      | none =>
        rw [found] at last
        cases last
        exact mark
      | some d =>
        rw [found] at last
        cases last
        exact back _ found

theorem Usable.hide (usable : Usable name) : Usable (hide name) := usable_hide_iff.2 usable.back

/-- A name with the mark is usable if it would be with one more. -/
theorem Usable.of_hide (hidden : isHidden name = true) (usable : Usable (Name.hide name)) :
    Usable name := by
  have split := hide_base hidden
  refine ⟨?_, ?_, usable_hide_iff.1 usable⟩
  · rw [← split]
    exact List.cons_ne_nil _ _
  · intro c first
    rw [← split] at first
    cases first
    decide

theorem Usable.append {suffix : Text} (usable : Usable name)
    (back : ∀ c, suffix.getLast? = some c → Text.isBlank c = false) : Usable (name ++ suffix) := by
  refine ⟨by simp [usable.filled], ?_, ?_⟩
  · intro c first
    rw [List.head?_append_of_ne_nil _ usable.filled] at first
    exact usable.front c first
  · intro c last
    cases suffix with
    | nil => exact usable.back c (by simpa using last)
    | cons d suffix =>
      rw [List.getLast?_append_of_ne_nil _ (List.cons_ne_nil d suffix)] at last
      exact back c last

/-- A token with a usable name asks for it. -/
theorem split?_of_usable (usable : Usable name) (open_still : '\x7d' ∉ name)
    (one_line : '\n' ∉ name) (unmarked : name.head? ≠ some '%') :
    Reference.split? .taking ('\x7b' :: name ++ ['\x7d']) = some ⟨[], name, []⟩ := by
  have nothing : Text.Blank [] := List.forall_mem_nil _
  have inside : Reference.Inside .taking name name :=
    @Reference.Inside.taking name [] name [] unmarked (by simp) nothing nothing one_line
  rw [Reference.split?_eq_some_iff]
  exact
    { token := ⟨name, name, rfl, open_still, inside, (usable_iff.1 usable).2.symm⟩
      leftmost := fun _ _ _ _ _ _ => Nat.zero_le _ }

/-- No token asks for a name that is not usable, unless for the empty one. -/
theorem usable_of_split? {form : Reference.Form} {text : Text} {split : Reference.Split}
    (found : Reference.split? form text = some split) : split.name = [] ∨ Usable split.name := by
  obtain ⟨inside, part, -, -, -, trimmed⟩ := (Reference.split?_eq_some_iff.1 found).token
  rw [trimmed]
  by_cases filled : Text.trim part = []
  · exact .inl filled
  · exact .inr (usable_trim filled)

end Name

namespace Store

theorem usable_numbered {name : Text} (usable : Name.Usable name) (k : Nat) :
    Name.Usable (numbered name k) := by
  rw [numbered_eq]
  refine usable.append fun c last => ?_
  cases k with
  | zero => cases last
  | succ k =>
    rw [numberMark, List.getLast?_concat] at last
    cases last
    decide

theorem usable_nonBlankOr {fallback : Text} (usable : Name.Usable fallback) (t : Text) :
    Name.Usable (nonBlankOr fallback t) := by
  unfold nonBlankOr
  split
  · exact usable
  · next filled => exact Name.usable_trim filled

end Store

end DrawPile
