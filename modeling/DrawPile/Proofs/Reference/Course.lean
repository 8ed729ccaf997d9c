import DrawPile.Proofs.Reference.Conservation
import DrawPile.Proofs.Reference.Grammar
import DrawPile.Proofs.Reference.Pass

/-! The course of a pass. It is told from the text, token by token, and knows of no limit: a sweep
goes on to the end of the text, or it stands still before some token. A pass run within limits is
such a course, and a limit shows only in where it stands still. -/
namespace DrawPile.Reference
variable {σ : Type} {observe : Observer σ} {t after : Table σ}

/-- Where a sweep or a pass comes to its end: behind the text, before a token, or at a token whose
entry the observer refuses. -/
inductive Stop
  | finished
  | halted
  | refused (e : Error)

/-- The course of a sweep: the substitutions made, the table that they leave, and the text written.
The first token of the form gives way to what is drawn by its name, the text before it is kept, and
the sweep goes on behind it. -/
inductive Sweeps (observe : Observer σ) (form : Form) :
    Text → Table σ → List Substitution → Table σ → Text → Stop → Prop
  | finished {text : Text} {t : Table σ} (plain : Plain form text) :
      Sweeps observe form text t [] t text .finished
  | halted {text : Text} {t : Table σ} {s : Split} (first : IsFirst form text s) :
      Sweeps observe form text t [] t s.before .halted
  | refused {text : Text} {t after : Table σ} {s : Split} {r : Substitution} {e : Error}
      (first : IsFirst form text s) (own : r.form = form) (named : r.name = s.name)
      (step : Substitutes observe t r after (.error e)) :
      Sweeps observe form text t [r] after s.before (.refused e)
  | next {text written : Text} {t between after : Table σ} {s : Split} {r : Substitution}
      {rs : List Substitution} {stop : Stop} (first : IsFirst form text s) (own : r.form = form)
      (named : r.name = s.name) (step : Substitutes observe t r between (.ok ()))
      (rest : Sweeps observe form s.after between rs after written stop) :
      Sweeps observe form text t (r :: rs) after (s.before ++ r.text ++ written) stop

/-- The course of a pass: the keeping sweep, and once it is finished the taking sweep over what it
has written. -/
inductive Expands (observe : Observer σ) (text : Text) (t : Table σ) :
    List Substitution → Table σ → Text → Stop → Prop
  | stopped {after : Table σ} {rs : List Substitution} {written : Text} {stop : Stop}
      (early : stop ≠ .finished) (keeping : Sweeps observe .keeping text t rs after written stop) :
      Expands observe text t rs after written stop
  | swept {between after : Table σ} {rs rs' : List Substitution} {swept written : Text}
      {stop : Stop} (keeping : Sweeps observe .keeping text t rs between swept .finished)
      (taking : Sweeps observe .taking swept between rs' after written stop) :
      Expands observe text t (rs ++ rs') after written stop

/- What a pass gives by where it ends; it stands still for want of draws only. -/
def Stop.answer (limits : Limits) (pass : Pass) (written : Text) : Stop → Except Error Text
  | .finished => .ok written
  | .halted => .error (.unfinished pass.number pass.start (some limits.draws))
  | .refused e => .error e

def Stop.told : Stop → Except Error Unit
  | .refused e => .error e
  | _ => .ok ()

/- An outcome that a course explains. The draws are used up where it stands still, and are never
exceeded. -/
def Follows (limits : Limits) (pass : Pass) (t : Table σ)
    (course : List Substitution → Table σ → Text → Stop → Prop) (o : Outcome (Table σ) Text) :
    Prop :=
  ∃ rs written stop, course rs o.1 written stop ∧ o.2 = stop.answer limits pass written ∧
    (stop = .halted → limits.draws ≤ o.1.replaced) ∧ o.1.replaced ≤ max t.replaced limits.draws

theorem Substitutes.replaced {r : Substitution} {heard : Except Error Unit}
    (step : Substitutes observe t r after heard) :
    after.replaced = t.replaced + 1 := step.accounts.replaced

theorem Substitutes.unique {after' : Table σ} {r r' : Substitution}
    {heard heard' : Except Error Unit} (one : Substitutes observe t r after heard)
    (other : Substitutes observe t r' after' heard') (form : r.form = r'.form)
    (name : r.name = r'.name) : r = r' ∧ after = after' ∧ heard = heard' := by
  cases one <;> cases other <;> simp_all

theorem replace_of_step {limits : Limits} {pass : Pass} {r : Substitution}
    {heard : Except Error Unit} (step : Substitutes observe t r after heard)
    (left : t.replaced < limits.draws) :
    replace limits observe pass r.form r.name t = (after, heard.map fun _ => r.text) := by
  obtain ⟨r', after', heard', own, named, step', result⟩ :=
    replace_of_left (Nat.not_le_of_lt left) observe pass r.form r.name
  obtain ⟨rfl, rfl, rfl⟩ := step.unique step' own.symm named.symm
  exact result

theorem Follows.map {limits : Limits} {pass : Pass} {between : Table σ} {r : Substitution}
    {course course' : List Substitution → Table σ → Text → Stop → Prop} {o : Outcome (Table σ) Text}
    (follows : Follows limits pass between course o) (front : Text)
    (started : between.replaced ≤ max t.replaced limits.draws)
    (longer : ∀ rs after written stop, course rs after written stop →
      course' (r :: rs) after (front ++ written) stop) :
    Follows limits pass t course' (o.map (front ++ ·)) := by
  obtain ⟨rs, written, stop, known, answer, halted, bound⟩ := follows
  refine ⟨r :: rs, front ++ written, stop, ?_, ?_, ?_, ?_⟩
  · rw [Outcome.map_fst]
    exact longer rs _ written stop known
  · rw [Outcome.map_snd, answer]
    cases stop <;> rfl
  · rwa [Outcome.map_fst]
  · rw [Outcome.map_fst]
    omega

/-- A sweep within limits follows the course of the text, and stands still for want of draws. -/
theorem sweep_follows {limits : Limits} {pass : Pass} {form : Form} (text : Text) (t : Table σ) :
    Follows limits pass t (Sweeps observe form text t) (sweep limits observe pass form text t) := by
  induction text using segments.induct form generalizing t with
  | case1 text missing =>
    rw [sweep_of_none missing]
    exact ⟨[], text, .finished, .finished (split?_eq_none_iff.1 missing), rfl, by simp,
      Nat.le_max_left _ _⟩
  | case2 text s found _ _ _ ih =>
    have first := isFirst_of_split? found
    rw [sweep_of_some found]
    by_cases spent : limits.draws ≤ t.replaced
    · rw [replace_of_spent spent]
      exact ⟨[], s.before, .halted, .halted first, rfl, fun _ => spent, Nat.le_max_left _ _⟩
    · obtain ⟨r, between, heard, own, named, step, result⟩ :=
        replace_of_left spent observe pass form s.name
      have counted := step.replaced
      rw [result]
      cases heard with
      | error e =>
        refine ⟨[r], s.before, .refused e, .refused first own named step, rfl, by simp, ?_⟩
        show between.replaced ≤ max t.replaced limits.draws
        omega
      | ok u =>
        apply (ih between).map (s.before ++ r.text)
        · omega
        · intro rs after written stop rest
          exact .next first own named step rest

theorem sweep_of_course {limits : Limits} {pass : Pass} {form : Form} {text written : Text}
    {rs : List Substitution} {stop : Stop}
    (course : Sweeps observe form text t rs after written stop) (finished : stop = .finished)
    (enough : t.replaced + rs.length ≤ limits.draws) :
    sweep limits observe pass form text t = (after, .ok written) := by
  induction course with
  | finished plain => exact sweep_of_none (split?_eq_none_iff.2 plain)
  | halted | refused => cases finished
  | @next text written t between after s r rs stop first own named step rest ih =>
    rw [List.length_cons] at enough
    have counted := step.replaced
    have left : t.replaced < limits.draws := by omega
    have drawn : replace limits observe pass r.form r.name t = (between, .ok r.text) :=
      replace_of_step step left
    rw [own, named] at drawn
    rw [sweep_of_some (split?_eq_some_iff.2 first), drawn]
    rw [Outcome.andThen_ok, ih finished (by omega), Outcome.map_ok]

theorem Sweeps.draws {form : Form} {text written : Text} {rs : List Substitution} {stop : Stop}
    (course : Sweeps observe form text t rs after written stop) :
    Draws observe t rs after stop.told := by
  induction course with
  | finished | halted => exact .done
  | refused first own named step => exact .stopped step
  | next first own named step rest ih => exact .next step ih

theorem Expands.draws {text written : Text} {rs : List Substitution} {stop : Stop}
    (course : Expands observe text t rs after written stop) :
    Draws observe t rs after stop.told := by
  cases course with
  | stopped early keeping => exact keeping.draws
  | swept keeping taking => exact keeping.draws.append taking.draws

theorem runPass_follows {limits : Limits} (number : Nat) (text : Text) (t : Table σ) :
    Follows limits ⟨number, text⟩ t (Expands observe text t)
      (runPass limits observe number text t) := by
  obtain ⟨rs, written, stop, keeping, answer, halted, bound⟩ :=
    @sweep_follows σ observe limits ⟨number, text⟩ .keeping text t
  rw [runPass]
  generalize sweep limits observe ⟨number, text⟩ .keeping text t = o at *
  obtain ⟨between, result⟩ := o
  obtain rfl : result = _ := answer
  cases stop with
  | finished =>
    obtain ⟨rs', written', stop', taking, answer', halted', bound'⟩ :=
      @sweep_follows σ observe limits ⟨number, text⟩ .taking written between
    refine ⟨rs ++ rs', written', stop', .swept keeping taking, answer', halted', ?_⟩
    show (sweep limits observe ⟨number, text⟩ .taking written between).1.replaced ≤ _
    have first : between.replaced ≤ max t.replaced limits.draws := bound
    omega
  | halted => exact ⟨rs, written, .halted, .stopped (by simp) keeping, rfl, halted, bound⟩
  | refused e => exact ⟨rs, written, .refused e, .stopped (by simp) keeping, rfl, halted, bound⟩

theorem runPass_of_course {limits : Limits} {text written : Text} {rs : List Substitution}
    (course : Expands observe text t rs after written .finished)
    (enough : t.replaced + rs.length ≤ limits.draws) (number : Nat) :
    runPass limits observe number text t = (after, .ok written) := by
  generalize ends : Stop.finished = stop at course
  cases course with
  | stopped early => exact absurd ends.symm early
  | @swept between _ rs rs' swept _ _ keeping taking =>
    rw [List.length_append] at enough
    have counted := keeping.draws.accounts.replaced
    rw [runPass, sweep_of_course keeping rfl (by omega), Outcome.andThen_ok]
    exact sweep_of_course taking ends.symm (by omega)

theorem runPass_of_no_references {limits : Limits} {text : Text}
    (finished : hasReferences text = false) (number : Nat) :
    runPass limits observe number text t = (t, .ok text) := by
  rw [hasReferences, Bool.or_eq_false_iff, Option.isSome_eq_false_iff, Option.isNone_iff_eq_none,
    Option.isSome_eq_false_iff, Option.isNone_iff_eq_none] at finished
  rw [runPass, sweep_of_none finished.1, Outcome.andThen_ok, sweep_of_none finished.2]

theorem Sweeps.no_closing {form : Form} {text written : Text} {rs : List Substitution} {stop : Stop}
    (course : Sweeps observe form text t rs after written stop) : ∀ r ∈ rs, '\x7d' ∉ r.name := by
  induction course with
  | finished | halted => exact List.forall_mem_nil _
  | refused first own named step =>
    rw [List.forall_mem_singleton, named]
    exact not_mem_name (split?_eq_some_iff.2 first)
  | next first own named step rest ih =>
    rw [List.forall_mem_cons, named]
    exact ⟨not_mem_name (split?_eq_some_iff.2 first), ih⟩

theorem Expands.no_closing {text written : Text} {rs : List Substitution} {stop : Stop}
    (course : Expands observe text t rs after written stop) : ∀ r ∈ rs, '\x7d' ∉ r.name := by
  cases course with
  | stopped early keeping => exact keeping.no_closing
  | swept keeping taking =>
    rw [List.forall_mem_append]
    exact ⟨keeping.no_closing, taking.no_closing⟩

/-- The grammar of references. A text has references where it can be split around what may stand
in a token of either form, with other braces inside or not. A pass replaces the tokens of the
keeping form and then those of the taking form, each time the first one up to the first closing
brace, by its trimmed name, and keeps all other text in its place. -/
theorem pass_grammar {σ : Type} (text : Text) :
    (hasReferences text = true ↔
      ∃ p u q, text = p ++ '\x7b' :: u ++ '\x7d' :: q ∧
        ((∃ b, u = '%' :: b ∧ '\n' ∉ b) ∨
          u.head? ≠ some '%' ∧
            ∃ a b c, u = a ++ b ++ c ∧ Text.Blank a ∧ Text.Blank c ∧ '\n' ∉ b)) ∧
    ∀ (limits : Limits) (observe : Observer σ) (number : Nat) (t : Table σ),
      ∃ rs written stop,
        Expands observe text t rs (runPass limits observe number text t).1 written stop ∧
        (runPass limits observe number text t).2 = stop.answer limits ⟨number, text⟩ written ∧
        (stop = .halted → limits.draws ≤ (runPass limits observe number text t).1.replaced) ∧
        ∀ r ∈ rs, '\x7d' ∉ r.name := by
  constructor
  · rw [hasReferences_iff]
    constructor
    · rintro ⟨form, p, u, q, part, whole, one_line | ⟨unmarked, around, before, behind, one_line⟩⟩
      · exact ⟨p, _, q, whole, .inl ⟨part, rfl, one_line⟩⟩
      · exact ⟨p, _, q, whole, .inr ⟨unmarked, _, _, _, around, before, behind, one_line⟩⟩
    · rintro ⟨p, u, q, whole, ⟨b, rfl, one_line⟩ |
        ⟨unmarked, a, b, c, around, before, behind, one_line⟩⟩
      · exact ⟨.keeping, p, _, q, b, whole, .keeping one_line⟩
      · exact ⟨.taking, p, u, q, u, whole, .taking unmarked around before behind one_line⟩
  · intro limits observe number t
    obtain ⟨rs, written, stop, course, answer, halted, -⟩ :=
      @runPass_follows σ observe limits number text t
    exact ⟨rs, written, stop, course, answer, halted, course.no_closing⟩

def jeweller : Table Unit where
  decks := [("gem".toList, ["ruby".toList])]
  source := .cycle #[]
  host := ()

def nested : Text := "\x7ba \x7b%gem\x7d\x7d and \x7b \n%ring\n\x7d".toList

def mended : Text :=
  invalidReference "a ruby".toList ++ " and ".toList ++ invalidReference "%ring".toList

/-- The inner token is replaced in the keeping sweep, and then the outer one is a taking token that
ends at its own brace; a percent sign that does not come first belongs to the name. -/
theorem pass_grammar_of_nested : hasReferences nested = true ∧
    ∃ rs, Expands .idle nested jeweller rs (runPass ⟨1, 3⟩ .idle 1 nested jeweller).1 mended
      .finished ∧ ∀ r ∈ rs, '\x7d' ∉ r.name := by
  have returned : (runPass ⟨1, 3⟩ .idle 1 nested jeweller).2 = .ok mended := by decide +kernel
  obtain ⟨grammar, passes⟩ := @pass_grammar Unit nested
  obtain ⟨rs, written, stop, course, answer, -, names⟩ := passes ⟨1, 3⟩ .idle 1 jeweller
  have split : nested = [] ++ '\x7b' :: "a \x7b%gem".toList ++ '\x7d' ::
      "\x7d and \x7b \n%ring\n\x7d".toList := rfl
  have nothing : Text.Blank [] := List.forall_mem_nil _
  refine ⟨grammar.2 ⟨_, _, _, split, .inr ⟨by decide, [], "a \x7b%gem".toList, [], rfl, nothing,
    nothing, by decide⟩⟩, rs, ?_, names⟩
  rw [returned] at answer
  cases stop with
  | finished => exact Except.ok.inj answer ▸ course
  | halted | refused => cases answer

end DrawPile.Reference
