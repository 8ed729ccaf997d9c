import DrawPile.Proofs.Reference.Token

/-! The grammar of tokens. What may stand between the braces of a token is said of the text alone,
and so is which token of a text comes first; the scanner finds that token, and finds none only where
there is none. -/
namespace DrawPile

namespace Text

def Blank (t : Text) : Prop := ∀ c ∈ t, isBlank c = true

theorem not_mem_of_blank {t : Text} {c : Char} (visible : isBlank c = false) (blank : Blank t) :
    c ∉ t := by
  intro member
  rw [blank c member] at visible
  cases visible

theorem trim_append_front {front : Text} (blank : Blank front) (t : Text) :
    trim (front ++ t) = trim t := by
  rw [trim, trimOf, List.dropWhile_append_of_pos blank]
  rfl

theorem trim_append_back {back : Text} (blank : Blank back) (t : Text) :
    trim (t ++ back) = trim t := by
  have dropped : back.dropWhile isBlank = [] := List.dropWhile_eq_nil_iff.2 blank
  have turned : ∀ c ∈ back.reverse, isBlank c = true := fun c member =>
    blank c (List.mem_reverse.1 member)
  rw [trim, trimOf, List.dropWhile_append]
  split
  · next nothing => simp [dropped, trim, trimOf, List.isEmpty_iff.1 nothing]
  · rw [List.reverse_append, List.dropWhile_append_of_pos turned]
    rfl

theorem trim_between {front back : Text} (before : Blank front) (behind : Blank back)
    (core : Text) :
    trim (front ++ core ++ back) = trim core := by
  rw [trim_append_back behind, trim_append_front before]

theorem exists_blanks_around (t : Text) :
    ∃ front back, t = front ++ trim t ++ back ∧ Blank front ∧ Blank back := by
  have blanks (u : Text) : Blank (u.takeWhile isBlank) := fun _ member =>
    List.mem_takeWhile_imp member
  have rest := List.takeWhile_append_dropWhile (p := isBlank) (l := (t.dropWhile isBlank).reverse)
  refine ⟨t.takeWhile isBlank, ((t.dropWhile isBlank).reverse.takeWhile isBlank).reverse, ?_,
    blanks t, fun c member => blanks _ c (List.mem_reverse.1 member)⟩
  calc t = t.takeWhile isBlank ++ t.dropWhile isBlank := List.takeWhile_append_dropWhile.symm
    _ = t.takeWhile isBlank ++ (trim t ++
          ((t.dropWhile isBlank).reverse.takeWhile isBlank).reverse) := by
        rw [trim, trimOf, ← List.reverse_append, rest, List.reverse_reverse]
    _ = _ := (List.append_assoc _ _ _).symm

/-- Up to a character that is not blank, there are blanks and then what stands in the core. -/
theorem exists_core_before {front core back u v : Text} {c : Char} (visible : isBlank c = false)
    (whole : u ++ c :: v = front ++ core ++ back) (before : Blank front) (behind : Blank back) :
    ∃ front' core', u = front' ++ core' ∧ Blank front' ∧ core' ⊆ core := by
  rw [List.append_assoc] at whole
  rcases List.append_eq_append_iff.1 whole with ⟨rest, split, -⟩ | ⟨rest, split, tail⟩
  · have blank : Blank u := fun d member => before d (split ▸ List.mem_append_left _ member)
    exact ⟨u, [], by simp, blank, by simp⟩
  · rcases List.append_eq_append_iff.1 tail with ⟨more, -, in_back⟩ | ⟨more, in_core, -⟩
    · have absent : c ∉ back := not_mem_of_blank visible behind
      simp [in_back] at absent
    · exact ⟨front, rest, split, before, in_core ▸ List.subset_append_left rest more⟩

end Text

namespace Reference
variable {form : Form} {text : Text}

/-- What may stand between the braces of a token, and what its name is trimmed from. A line feed
may stand only among the blanks around the name of a taking token. -/
inductive Inside : Form → Text → Text → Prop
  | keeping {part : Text} (one_line : '\n' ∉ part) : Inside .keeping ('%' :: part) part
  | taking {inside front core back : Text} (unmarked : inside.head? ≠ some '%')
      (around : inside = front ++ core ++ back) (before : Text.Blank front)
      (behind : Text.Blank back) (one_line : '\n' ∉ core) : Inside .taking inside inside

theorem namePart?_eq_some_iff {inside part : Text} :
    namePart? form inside = some part ↔ Inside form inside part := by
  constructor
  · intro named
    by_cases marked : inside.head? = some '%'
    · obtain ⟨name, rfl⟩ := List.head?_eq_some_iff.1 marked
      cases form with
      | keeping =>
        obtain ⟨one_line, rfl⟩ : '\n' ∉ name ∧ name = part := by simpa [namePart?] using named
        exact .keeping one_line
      | taking => cases named
    · cases form with
      | keeping =>
        rw [namePart?_keeping_of_unmarked marked] at named
        cases named
      | taking =>
        rw [namePart?_taking_of_unmarked marked] at named
        obtain ⟨one_line, rfl⟩ : '\n' ∉ Text.trim inside ∧ inside = part := by simpa using named
        obtain ⟨front, back, around, before, behind⟩ := Text.exists_blanks_around inside
        exact .taking marked around before behind one_line
  · rintro (one_line | ⟨unmarked, around, before, behind, one_line⟩)
    · exact if_neg one_line
    · have trimmed : '\n' ∉ Text.trim inside := by
        rw [around, Text.trim_between before behind]
        exact fun member => one_line ((Text.trim_sublist _).subset member)
      rw [namePart?_taking_of_unmarked unmarked, if_neg trimmed]

theorem Inside.cut {part u v : Text} (whole : Inside form (u ++ '\x7d' :: v) part) :
    ∃ part, Inside form u part := by
  generalize both : u ++ '\x7d' :: v = inside at whole
  rcases whole with one_line | @⟨_, front, core, back, unmarked, around, before, behind, one_line⟩
  · cases u with
    | nil => cases both
    | cons c u =>
      obtain ⟨rfl, rfl⟩ := List.cons.inj both
      exact ⟨u, .keeping fun member => one_line (List.mem_append_left _ member)⟩
  · have still_unmarked : u.head? ≠ some '%' := by
      rw [← both] at unmarked
      cases u with
      | nil => simp
      | cons c u => exact unmarked
    obtain ⟨front', core', split, before', within⟩ :=
      Text.exists_core_before (by decide) (both.trans around) before behind
    have nothing : Text.Blank [] := List.forall_mem_nil _
    exact ⟨u, @Inside.taking u front' core' [] still_unmarked (by simpa using split) before' nothing
      fun member => one_line (within member)⟩

theorem Inside.unique {inside part part' : Text} (one : Inside form inside part)
    (other : Inside form inside part') :
    part = part' :=
  Option.some.inj ((namePart?_eq_some_iff.2 one).symm.trans (namePart?_eq_some_iff.2 other))

/-- A token can be read after an opening brace wherever one stands there. -/
theorem token?_isSome_of_inside {inside part : Text} (ok : Inside form inside part) (t : Text) :
    (token? form (inside ++ '\x7d' :: t)).isSome = true := by
  by_cases closed : '\x7d' ∈ inside
  · obtain ⟨u, v, rfl, open_still⟩ := List.eq_append_cons_of_mem closed
    obtain ⟨name, cut⟩ := ok.cut
    rw [List.append_assoc, List.cons_append, token?_append open_still, namePart?_eq_some_iff.2 cut]
    rfl
  · rw [token?_append closed, namePart?_eq_some_iff.2 ok]
    rfl

/-- The first token of a form: it ends at the first closing brace after its opening one, and no
token of the form opens before it. -/
structure IsFirst (form : Form) (text : Text) (s : Split) : Prop where
  token : ∃ inside part, text = s.before ++ '\x7b' :: inside ++ '\x7d' :: s.after ∧
    '\x7d' ∉ inside ∧ Inside form inside part ∧ s.name = Text.trim part
  leftmost : ∀ before inside after part, text = before ++ '\x7b' :: inside ++ '\x7d' :: after →
    Inside form inside part → s.before.length ≤ before.length

def Plain (form : Form) (text : Text) : Prop :=
  ∀ before inside after part, text = before ++ '\x7b' :: inside ++ '\x7d' :: after →
    ¬ Inside form inside part

/-- The scanner stops no later than at any token that the grammar knows. -/
theorem splitFrom_leftmost {inside part : Text} (passed : Text) {before after : Text}
    (whole : text = before ++ '\x7b' :: inside ++ '\x7d' :: after) (ok : Inside form inside part) :
    ∃ s, splitFrom form passed text = some s ∧ s.before.length ≤ passed.length + before.length := by
  induction before generalizing passed text with
  | nil =>
    obtain ⟨⟨name, rest⟩, found⟩ := Option.isSome_iff_exists.1 (token?_isSome_of_inside ok after)
    refine ⟨⟨passed.reverse, name, rest⟩, ?_, by simp⟩
    rw [whole, List.nil_append, List.cons_append, splitFrom, if_pos rfl, found]
  | cons c before ih =>
    subst whole
    rw [List.cons_append, List.cons_append, splitFrom]
    split
    · next name rest _ => exact ⟨_, rfl, by simp⟩
    · obtain ⟨s, found, near⟩ := ih (c :: passed) rfl
      refine ⟨s, found, ?_⟩
      rw [List.length_cons] at near ⊢
      omega

theorem split?_eq_none_iff : split? form text = none ↔ Plain form text := by
  constructor
  · intro missing before inside after part whole ok
    obtain ⟨s, found, -⟩ := splitFrom_leftmost [] whole ok
    cases missing.symm.trans found
  · intro plain
    cases found : split? form text with
    | none => rfl
    | some s =>
      obtain ⟨inside, part, whole, -, named, -⟩ := split?_eq_some found
      exact absurd (namePart?_eq_some_iff.1 named) (plain _ _ _ _ whole)

theorem isFirst_of_split? {s : Split} (found : split? form text = some s) :
    IsFirst form text s := by
  obtain ⟨inside, part, whole, open_still, named, trimmed⟩ := split?_eq_some found
  refine ⟨⟨inside, part, whole, open_still, namePart?_eq_some_iff.1 named, trimmed⟩, ?_⟩
  intro before inside after part whole ok
  obtain ⟨s', found', near⟩ := splitFrom_leftmost [] whole ok
  cases found.symm.trans found'
  simpa using near

theorem IsFirst.unique {s s' : Split} (one : IsFirst form text s) (other : IsFirst form text s') :
    s = s' := by
  obtain ⟨inside, part, whole, open_still, ok, trimmed⟩ := one.token
  obtain ⟨inside', part', whole', open_still', ok', trimmed'⟩ := other.token
  have length : s.before.length = s'.before.length :=
    Nat.le_antisymm (one.leftmost _ _ _ _ whole' ok') (other.leftmost _ _ _ _ whole ok)
  have both : s.before ++ '\x7b' :: (inside ++ '\x7d' :: s.after) =
      s'.before ++ '\x7b' :: (inside' ++ '\x7d' :: s'.after) := by
    simpa using whole.symm.trans whole'
  obtain ⟨before, rest⟩ := List.append_inj both length
  have behind := (List.cons.inj rest).2
  -- Both end at the first closing brace behind the opening one.
  obtain ⟨taken, dropped⟩ := splitAt_closing open_still s.after
  obtain ⟨taken', dropped'⟩ := splitAt_closing open_still' s'.after
  rw [behind] at taken dropped
  have after := (List.cons.inj (dropped.symm.trans dropped')).2
  obtain rfl : inside = inside' := taken.symm.trans taken'
  obtain rfl := ok.unique ok'
  have name : s.name = s'.name := trimmed.trans trimmed'.symm
  cases s
  cases s'
  simp only [Split.mk.injEq]
  exact ⟨before, name, after⟩

theorem split?_eq_some_iff {s : Split} : split? form text = some s ↔ IsFirst form text s := by
  refine ⟨isFirst_of_split?, fun first => ?_⟩
  cases found : split? form text with
  | none =>
    obtain ⟨inside, part, whole, -, ok, -⟩ := first.token
    exact absurd ok (split?_eq_none_iff.1 found _ _ _ _ whole)
  | some s' => rw [(isFirst_of_split? found).unique first]

theorem split?_isSome_iff : (split? form text).isSome = true ↔ ∃ before inside after part,
    text = before ++ '\x7b' :: inside ++ '\x7d' :: after ∧ Inside form inside part := by
  rw [Option.isSome_iff_ne_none, ne_eq, split?_eq_none_iff]
  simp only [Plain, not_forall, not_not, exists_prop]

/-- There are references where a token of either form is, whatever stands inside it. -/
theorem hasReferences_iff : hasReferences text = true ↔ ∃ form before inside after part,
    text = before ++ '\x7b' :: inside ++ '\x7d' :: after ∧ Inside form inside part := by
  rw [hasReferences, Bool.or_eq_true, split?_isSome_iff, split?_isSome_iff]
  constructor
  · rintro (token | token)
    · exact ⟨.keeping, token⟩
    · exact ⟨.taking, token⟩
  · rintro ⟨_ | _, token⟩
    · exact .inl token
    · exact .inr token

end Reference

end DrawPile
