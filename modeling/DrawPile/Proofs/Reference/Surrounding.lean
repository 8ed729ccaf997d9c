import DrawPile.Proofs.Reference.Limits

/-! A text between two others. In the text before it no token opens and in the one behind it none
closes, whatever else they hold. So its references are resolved as if it stood alone, and what
stands around it stays; an error of a limit tells the text with what stands around it. -/
namespace DrawPile.Reference
variable {σ : Type} {form : Form} {front back : Text}

def Split.within (front back : Text) (s : Split) : Split :=
  ⟨front ++ s.before, s.name, s.after ++ back⟩

def Pass.within (front back : Text) (pass : Pass) : Pass :=
  ⟨pass.number, front ++ pass.start ++ back⟩

theorem token?_of_unclosed {text : Text} (unclosed : '\x7d' ∉ text) : token? form text = none := by
  cases found : token? form text with
  | none => rfl
  | some parts =>
    obtain ⟨inside, part, rfl, -⟩ := token?_eq_some found
    simp at unclosed

theorem token?_append_unclosed (unclosed : '\x7d' ∉ back) (text : Text) :
    token? form (text ++ back) = (token? form text).map fun found => (found.1, found.2 ++ back) := by
  by_cases closed : '\x7d' ∈ text
  · obtain ⟨inside, after, rfl, open_still⟩ := List.eq_append_cons_of_mem closed
    have whole : inside ++ '\x7d' :: after ++ back = inside ++ '\x7d' :: (after ++ back) := by simp
    simp only [whole, token?_append open_still, Option.map_map]
    rfl
  · have nowhere : '\x7d' ∉ text ++ back := by simp [closed, unclosed]
    rw [token?_of_unclosed nowhere, token?_of_unclosed closed]
    rfl

theorem splitFrom_of_unclosed {text : Text} (unclosed : '\x7d' ∉ text) (passed : Text) :
    splitFrom form passed text = none := by
  cases found : splitFrom form passed text with
  | none => rfl
  | some s =>
    obtain ⟨between, inside, part, -, rfl, -⟩ := splitFrom_eq_some found
    simp at unclosed

theorem splitFrom_within (unclosed : '\x7d' ∉ back) (front passed text : Text) :
    splitFrom form (passed ++ front.reverse) (text ++ back) =
      (splitFrom form passed text).map (Split.within front back) := by
  induction text generalizing passed with
  | nil => exact splitFrom_of_unclosed unclosed _
  | cons c text ih =>
    have same : (if c = '\x7b' then token? form (text ++ back) else none) =
        (if c = '\x7b' then token? form text else none).map
          fun found => (found.1, found.2 ++ back) := by
      split
      · exact token?_append_unclosed unclosed text
      · rfl
    rw [List.cons_append, splitFrom, splitFrom, same]
    cases (if c = '\x7b' then token? form text else none) with
    | none => exact ih (c :: passed)
    | some found => simp [Split.within]

/-- The first token of a text is the first one between two others, too. -/
theorem split?_within (unopened : '\x7b' ∉ front) (unclosed : '\x7d' ∉ back) (text : Text) :
    split? form (front ++ text ++ back) = (split? form text).map (Split.within front back) := by
  have scanned := @splitFrom_within form back unclosed front [] text
  rw [split?, List.append_assoc, splitFrom_append unopened]
  simpa [split?] using scanned

theorem hasReferences_within (unopened : '\x7b' ∉ front) (unclosed : '\x7d' ∉ back) (text : Text) :
    hasReferences (front ++ text ++ back) = hasReferences text := by
  simp only [hasReferences, split?_within unopened unclosed, Option.isSome_map]

/- How two outcomes correspond: the tables are the same, and what is returned is widened. An error
of a limit tells its text with the front and the back; any other is the observer's. -/
inductive Surrounded (observe : Observer σ) (front back : Text) (widen : Text → Text) :
    Outcome (Table σ) Text → Outcome (Table σ) Text → Prop
  | returned (t : Table σ) (written : Text) :
      Surrounded observe front back widen (t, .ok written) (t, .ok (widen written))
  | unfinished (t : Table σ) (pass : Int) (reached : Text) (draws : Option Int) :
      Surrounded observe front back widen (t, .error (.unfinished pass reached draws))
        (t, .error (.unfinished pass (front ++ reached ++ back) draws))
  | refused (t : Table σ) {e : Error} (told : ∃ removal host, (observe removal host).2 = .error e) :
      Surrounded observe front back widen (t, .error e) (t, .error e)

namespace Surrounded

theorem andThen {observe : Observer σ} {widen further : Text → Text} {o o' : Outcome (Table σ) Text}
    {f f' : Table σ → Text → Outcome (Table σ) Text}
    (first : Surrounded observe front back widen o o')
    (next : ∀ t written, Surrounded observe front back further (f t written)
      (f' t (widen written))) :
    Surrounded observe front back further (o.andThen f) (o'.andThen f') := by
  cases first with
  | returned t written => exact next t written
  | unfinished t pass reached draws => exact .unfinished t pass reached draws
  | refused t told => exact .refused t told

theorem map {observe : Observer σ} {widen further : Text → Text} {o o' : Outcome (Table σ) Text}
    {g g' : Text → Text} (first : Surrounded observe front back widen o o')
    (same : ∀ written, g' (widen written) = further (g written)) :
    Surrounded observe front back further (o.map g) (o'.map g') := by
  apply first.andThen
  intro t written
  rw [same]
  exact .returned t (g written)

end Surrounded

theorem replace_surrounded {observe : Observer σ} (limits : Limits) (pass : Pass) (form : Form)
    (name : Text) (t : Table σ) :
    Surrounded observe front back id (replace limits observe pass form name t)
      (replace limits observe (pass.within front back) form name t) := by
  by_cases spent : limits.draws ≤ t.replaced
  · rw [replace_of_spent spent, replace_of_spent spent]
    exact .unfinished t pass.number pass.start (some limits.draws)
  · -- A draw that is left does not depend on the pass.
    obtain ⟨r, after, heard, -, -, step, result⟩ := substitutes_drawFrom observe t form name
    simp only [replace, if_neg spent, result]
    cases heard with
    | ok u => exact .returned after r.text
    | error e => exact .refused after step.answer

/-- A sweep, behind some text without an opening brace. -/
theorem sweep_surrounded {limits : Limits} {observe : Observer σ} (pass : Pass) {before : Text}
    (unopened : '\x7b' ∉ before) (unclosed : '\x7d' ∉ back) (text : Text) (t : Table σ) :
    Surrounded observe front back (fun written => before ++ written ++ back)
      (sweep limits observe pass form text t)
      (sweep limits observe (pass.within front back) form (before ++ text ++ back) t) := by
  induction text using segments.induct form generalizing t before with
  | case1 text missing =>
    have missing' : split? form (before ++ text ++ back) = none := by
      rw [split?_within unopened unclosed, missing]
      rfl
    rw [sweep_of_none missing, sweep_of_none missing']
    exact .returned t text
  | case2 text s found _ _ _ ih =>
    have found' : split? form (before ++ text ++ back) = some (s.within before back) := by
      rw [split?_within unopened unclosed, found]
      rfl
    rw [sweep_of_some found, sweep_of_some found']
    apply (replace_surrounded limits pass form s.name t).andThen
    intro t drawn
    have nothing : '\x7b' ∉ ([] : Text) := by simp
    apply (ih nothing t).map
    intro written
    simp [Split.within]

theorem runPass_surrounded {limits : Limits} {observe : Observer σ} (unopened : '\x7b' ∉ front)
    (unclosed : '\x7d' ∉ back) (number : Nat) (text : Text) (t : Table σ) :
    Surrounded observe front back (fun written => front ++ written ++ back)
      (runPass limits observe number text t)
      (runPass limits observe number (front ++ text ++ back) t) := by
  apply (sweep_surrounded ⟨number, text⟩ unopened unclosed text t).andThen
  intro t swept
  exact sweep_surrounded ⟨number, text⟩ unopened unclosed swept t

theorem runPasses_surrounded {limits : Limits} {observe : Observer σ} (unopened : '\x7b' ∉ front)
    (unclosed : '\x7d' ∉ back) (left number : Nat) (text : Text) (t : Table σ) :
    Surrounded observe front back (fun written => front ++ written ++ back)
      (runPasses limits observe left number text t)
      (runPasses limits observe left number (front ++ text ++ back) t) := by
  have alike := hasReferences_within unopened unclosed
  induction left generalizing number text t with
  | zero =>
    cases references : hasReferences text with
    | false =>
      have references' := (alike text).trans references
      rw [runPasses_of_no_references references, runPasses_of_no_references references']
      exact .returned t text
    | true =>
      have references' := (alike text).trans references
      rw [runPasses_zero_of_references references, runPasses_zero_of_references references']
      exact .unfinished t limits.passes text none
  | succ left ih =>
    cases references : hasReferences text with
    | false =>
      have references' := (alike text).trans references
      rw [runPasses_of_no_references references, runPasses_of_no_references references']
      exact .returned t text
    | true =>
      have references' := (alike text).trans references
      rw [runPasses_of_references references, runPasses_of_references references']
      apply (runPass_surrounded unopened unclosed number text t).andThen
      intro t expanded
      exact ih (number + 1) expanded t

/-- What stands around a text does not matter to its resolution. The same is drawn, and what comes
back stands between the same texts; when a limit is exceeded, it is so in the same pass and with the
same draws, and the text told is the one reached, between the same texts. -/
theorem resolve_surrounded {σ : Type} {front back : Text} (unopened : '\x7b' ∉ front)
    (unclosed : '\x7d' ∉ back) (limits : Limits) (observe : Observer σ) (text : Text)
    (t : Table σ) :
    (resolve limits observe (front ++ text ++ back) t).1 = (resolve limits observe text t).1 ∧
    (∀ settled, (resolve limits observe text t).2 = .ok settled →
      (resolve limits observe (front ++ text ++ back) t).2 = .ok (front ++ settled ++ back)) ∧
    ∀ e, (resolve limits observe text t).2 = .error e →
      (∃ pass reached draws, e = .unfinished pass reached draws ∧
        (resolve limits observe (front ++ text ++ back) t).2 =
          .error (.unfinished pass (front ++ reached ++ back) draws)) ∨
      (∃ removal host, (observe removal host).2 = .error e) ∧
        (resolve limits observe (front ++ text ++ back) t).2 = .error e := by
  have ends : Surrounded observe front back (fun written => front ++ written ++ back)
      (resolve limits observe text t) (resolve limits observe (front ++ text ++ back) t) :=
    runPasses_surrounded unopened unclosed limits.passes 1 text _
  generalize resolve limits observe text t = alone at ends
  generalize resolve limits observe (front ++ text ++ back) t = between at ends
  cases ends with
  | returned after written =>
    refine ⟨rfl, ?_, ?_⟩
    · rintro settled ⟨⟩
      rfl
    · rintro e ⟨⟩
  | unfinished after pass reached draws =>
    refine ⟨rfl, ?_, ?_⟩
    · rintro settled ⟨⟩
    · rintro e ⟨⟩
      exact .inl ⟨pass, reached, draws, rfl, rfl⟩
  | refused after told =>
    refine ⟨rfl, ?_, ?_⟩
    · rintro settled ⟨⟩
    · rintro e ⟨⟩
      exact .inr ⟨told, rfl⟩

theorem resolve_surrounded_of_treasury :
    ('\x7b' ∉ "b\x7d ".toList ∧ '\x7d' ∉ " \x7b%ring".toList) ∧
      (resolve ⟨1, 3⟩ .idle ("b\x7d ".toList ++ order ++ " \x7b%ring".toList) treasury).2 =
        .ok "b\x7d a ruby ring and opal \x7b%ring".toList ∧
      (resolve ⟨1, 2⟩ .idle ("b\x7d ".toList ++ order ++ " \x7b%ring".toList) treasury).2 =
        .error (.unfinished 1 ("b\x7d ".toList ++ order ++ " \x7b%ring".toList) (some 2)) := by
  have unopened : '\x7b' ∉ "b\x7d ".toList := by decide
  have unclosed : '\x7d' ∉ " \x7b%ring".toList := by decide
  have returned : (resolve ⟨1, 3⟩ .idle order treasury).2 = .ok "a ruby ring and opal".toList := by
    decide +kernel
  have ended : (resolve ⟨1, 2⟩ .idle order treasury).2 = .error (.unfinished 1 order (some 2)) := by
    decide +kernel
  refine ⟨⟨unopened, unclosed⟩, ?_, ?_⟩
  · exact (resolve_surrounded unopened unclosed ⟨1, 3⟩ .idle order treasury).2.1 _ returned
  · rcases (resolve_surrounded unopened unclosed ⟨1, 2⟩ .idle order treasury).2.2 _ ended with
      ⟨_, _, _, ⟨⟩, told⟩ | ⟨⟨_, _, answer⟩, -⟩
    · exact told
    · cases answer

end DrawPile.Reference
