import DrawPile.Proofs.Reference.Token

/-! Clean texts. Their braces all belong to tokens written on one line, and so the tokens that are
found in them are the ones they were written with. -/
namespace DrawPile.Reference

def Form.mark : Form → Text
  | .keeping => ['%']
  | .taking => []

/- Without a brace. -/
def Bare (t : Text) : Prop := ∀ c ∈ t, c ≠ '\x7b' ∧ c ≠ '\x7d'

instance (t : Text) : Decidable (Bare t) :=
  List.decidableBAll (fun c => c ≠ '\x7b' ∧ c ≠ '\x7d') t

/-- Every brace belongs to a token that has no other brace and no line feed inside, and every
token, by its form and its name, is of a kind. -/
inductive Clean (kind : Form → Text → Prop) : Text → Prop
  | nil : Clean kind []
  | letter {c : Char} {t : Text} (bare : c ≠ '\x7b' ∧ c ≠ '\x7d') (rest : Clean kind t) :
      Clean kind (c :: t)
  | token {form : Form} {inside t : Text} (bare : Bare inside) (one_line : '\n' ∉ inside)
      (unmarked : form = .taking → inside.head? ≠ some '%')
      (named : kind form (Text.trim inside)) (rest : Clean kind t) :
      Clean kind ('\x7b' :: form.mark ++ inside ++ '\x7d' :: t)

variable {kind : Form → Text → Prop} {form : Form} {t : Text}

theorem Bare.no_opening (bare : Bare t) : '\x7b' ∉ t := fun member => (bare _ member).1 rfl

theorem Bare.no_closing (bare : Bare t) : '\x7d' ∉ t := fun member => (bare _ member).2 rfl

theorem Bare.of_not_mem (unopened : '\x7b' ∉ t) (unclosed : '\x7d' ∉ t) : Bare t := by
  intro c member
  constructor
  · rintro rfl
    exact unopened member
  · rintro rfl
    exact unclosed member

theorem Bare.append {u : Text} (bare : Bare t) (bare' : Bare u) : Bare (t ++ u) := by
  intro c member
  cases List.mem_append.1 member with
  | inl left => exact bare c left
  | inr right => exact bare' c right

theorem Bare.trim (bare : Bare t) : Bare (Text.trim t) :=
  fun c member => bare c ((Text.trim_sublist t).subset member)

theorem bare_mark (form : Form) : Bare form.mark := by
  intro c member
  cases form with
  | keeping =>
    cases List.mem_singleton.1 member
    decide
  | taking => cases member

namespace Clean

theorem mono {other : Form → Text → Prop} (clean : Clean kind t)
    (weaker : ∀ form name, kind form name → other form name) :
    Clean other t := by
  induction clean with
  | nil => exact .nil
  | letter bare _ ih => exact .letter bare ih
  | token bare one_line unmarked named _ ih =>
    exact .token bare one_line unmarked (weaker _ _ named) ih

theorem append {u : Text} (clean : Clean kind t) (clean' : Clean kind u) : Clean kind (t ++ u) := by
  induction clean with
  | nil => exact clean'
  | letter bare _ ih => exact .letter bare ih
  | token bare one_line unmarked named _ ih =>
    rw [List.append_assoc, List.cons_append]
    exact .token bare one_line unmarked named ih

theorem of_bare (bare : Bare t) : Clean kind t := by
  induction t with
  | nil => exact .nil
  | cons c t ih =>
    apply Clean.letter
    · exact bare c List.mem_cons_self
    · exact ih fun d member => bare d (List.mem_cons_of_mem c member)

end Clean

theorem namePart?_mark {inside : Text} (one_line : '\n' ∉ inside)
    (unmarked : form = .taking → inside.head? ≠ some '%') :
    namePart? form (form.mark ++ inside) = some inside := by
  cases form with
  | keeping => simp [Form.mark, namePart?, one_line]
  | taking =>
    have trimmed : '\n' ∉ Text.trim inside := fun member =>
      one_line ((Text.trim_sublist inside).subset member)
    rw [Form.mark, List.nil_append, namePart?_taking_of_unmarked (unmarked rfl), if_neg trimmed]

theorem namePart?_other_mark {own : Form} {inside : Text} (different : own ≠ form)
    (unmarked : own = .taking → inside.head? ≠ some '%') :
    namePart? form (own.mark ++ inside) = none := by
  cases own <;> cases form
  case keeping.keeping => exact absurd rfl different
  case keeping.taking => rfl
  case taking.keeping => exact namePart?_keeping_of_unmarked (unmarked rfl)
  case taking.taking => exact absurd rfl different

theorem token?_mark {own : Form} {inside : Text} (bare : Bare inside) (t : Text) :
    token? form (own.mark ++ inside ++ '\x7d' :: t) =
      (namePart? form (own.mark ++ inside)).map fun part => (Text.trim part, t) :=
  token?_append ((bare_mark own).append bare).no_closing t

theorem splitFrom_token {inside : Text} (bare : Bare inside) (one_line : '\n' ∉ inside)
    (unmarked : form = .taking → inside.head? ≠ some '%') (passed : Text) :
    splitFrom form passed ('\x7b' :: form.mark ++ inside ++ '\x7d' :: t) =
      some ⟨passed.reverse, Text.trim inside, t⟩ := by
  have reads := @token?_mark form form inside bare t
  rw [namePart?_mark one_line unmarked] at reads
  rw [List.cons_append, List.cons_append, splitFrom, if_pos rfl, reads]
  rfl

theorem splitFrom_other_token {own : Form} {inside : Text} (bare : Bare inside)
    (unmarked : own = .taking → inside.head? ≠ some '%') (different : own ≠ form) (passed : Text) :
    splitFrom form passed ('\x7b' :: own.mark ++ inside ++ '\x7d' :: t) =
      splitFrom form ('\x7d' :: (own.mark ++ inside).reverse ++ '\x7b' :: passed) t := by
  have reads := @token?_mark form own inside bare t
  have plain : '\x7b' ∉ own.mark ++ inside ++ ['\x7d'] := by
    simpa using ((bare_mark own).append bare).no_opening
  rw [namePart?_other_mark different unmarked] at reads
  rw [List.cons_append, List.cons_append, splitFrom, if_pos rfl, reads]
  simpa using splitFrom_append plain ('\x7b' :: passed)

/- Of a kind, but not of some form. -/
def Besides (form : Form) (kind : Form → Text → Prop) (f : Form) (name : Text) : Prop :=
  f ≠ form ∧ kind f name

theorem Clean.first_token (clean : Clean kind t) (form : Form) (passed : Text) :
    (splitFrom form passed t = none ∧ Clean (Besides form kind) t) ∨
    ∃ before name after,
      splitFrom form passed t = some ⟨passed.reverse ++ before, name, after⟩ ∧
      Clean (Besides form kind) before ∧ Bare name ∧ kind form name ∧ Clean kind after := by
  induction clean generalizing passed with
  | nil => exact .inl ⟨rfl, .nil⟩
  | @letter c t bare _ ih =>
    have skipped : splitFrom form passed (c :: t) = splitFrom form (c :: passed) t :=
      splitFrom_append (u := [c]) (by simpa using Ne.symm bare.1) passed
    rw [skipped]
    rcases ih (c :: passed) with ⟨missing, rest⟩ | ⟨before, name, after, found, front, rest⟩
    · exact .inl ⟨missing, .letter bare rest⟩
    · exact .inr ⟨c :: before, name, after, by simpa using found, .letter bare front, rest⟩
  | @token own inside t bare one_line unmarked named rest ih =>
    by_cases same : own = form
    · subst same
      refine .inr ⟨[], Text.trim inside, t, ?_, .nil, bare.trim, named, rest⟩
      rw [List.append_nil]
      exact splitFrom_token bare one_line unmarked passed
    · -- No brace inside a token starts another one, so the search goes on behind it.
      rw [splitFrom_other_token bare unmarked same]
      rcases ih ('\x7d' :: (own.mark ++ inside).reverse ++ '\x7b' :: passed) with
        ⟨missing, rest⟩ | ⟨before, name, after, found, front, rest⟩
      · exact .inl ⟨missing, .token bare one_line unmarked ⟨same, named⟩ rest⟩
      · refine .inr ⟨'\x7b' :: own.mark ++ inside ++ '\x7d' :: before, name, after, ?_,
          .token bare one_line unmarked ⟨same, named⟩ front, rest⟩
        simpa using found

theorem Clean.of_none (clean : Clean kind t) (missing : split? form t = none) :
    Clean (Besides form kind) t := by
  rcases clean.first_token form [] with ⟨-, rest⟩ | ⟨before, name, after, found, -⟩
  · exact rest
  · cases missing.symm.trans found

/-- Before the first token of a form there are tokens of the other form only. -/
theorem Clean.of_some {s : Split} (clean : Clean kind t) (found : split? form t = some s) :
    Clean (Besides form kind) s.before ∧ Bare s.name ∧ kind form s.name ∧
      Clean kind s.after := by
  rcases clean.first_token form [] with ⟨missing, -⟩ | ⟨before, name, after, same, rest⟩
  · cases found.symm.trans missing
  · cases found.symm.trans same
    exact rest

theorem Clean.no_references (clean : Clean kind t) (no_tokens : ∀ form name, ¬ kind form name) :
    hasReferences t = false := by
  have missing (form : Form) : split? form t = none := by
    cases found : split? form t with
    | none => rfl
    | some s =>
      obtain ⟨-, -, named, -⟩ := clean.of_some found
      exact absurd named (no_tokens form s.name)
  simp [hasReferences, missing]

end DrawPile.Reference
