import DrawPile.Proofs.Reference.Course

/-! The passes of a resolution, counted. Passes follow one another while there are references, and
the limits stop them at the exact count: a resolution that needs no more than it may use returns,
and one that fails for a limit has used it up. -/
namespace DrawPile.Reference
variable {σ : Type}

/-- Whole passes one after another, each of them over a text with references: how many there are,
their substitutions, the table that they leave and the text after the last. -/
inductive Passes (observe : Observer σ) :
    Nat → Text → Table σ → List Substitution → Table σ → Text → Prop
  | none {text : Text} {t : Table σ} : Passes observe 0 text t [] t text
  | next {passes : Nat} {text expanded reached : Text} {t between after : Table σ}
      {rs rs' : List Substitution} (references : hasReferences text = true)
      (course : Expands observe text t rs between expanded .finished)
      (rest : Passes observe passes expanded between rs' after reached) :
      Passes observe (passes + 1) text t (rs ++ rs') after reached

theorem Passes.draws {observe : Observer σ} {text reached : Text} {t after : Table σ}
    {rs : List Substitution} {passes : Nat} (run : Passes observe passes text t rs after reached) :
    Draws observe t rs after (.ok ()) := by
  induction run with
  | none => exact .done
  | next references course rest ih => exact course.draws.append ih

/- How the passes that are left end, the first of which has a number: the text is settled, or the
passes are used up, or one more of them is not finished. -/
inductive Ends (limits : Limits) (observe : Observer σ) (left number : Nat) (text : Text)
    (t after : Table σ) : Except Error Text → Prop
  | settled {passes : Nat} {rs : List Substitution} {settled : Text} (within : passes ≤ left)
      (run : Passes observe passes text t rs after settled)
      (finished : hasReferences settled = false) :
      Ends limits observe left number text t after (.ok settled)
  | exhausted {rs : List Substitution} {reached : Text}
      (run : Passes observe left text t rs after reached)
      (references : hasReferences reached = true) :
      Ends limits observe left number text t after (.error (.unfinished limits.passes reached none))
  | interrupted {passes : Nat} {rs rs' : List Substitution} {between : Table σ}
      {reached written : Text} {stop : Stop} (within : passes < left)
      (run : Passes observe passes text t rs between reached)
      (references : hasReferences reached = true)
      (course : Expands observe reached between rs' after written stop)
      (early : stop ≠ .finished) (halted : stop = .halted → limits.draws ≤ after.replaced) :
      Ends limits observe left number text t after
        (stop.answer limits ⟨number + passes, reached⟩ written)

theorem Ends.next {limits : Limits} {observe : Observer σ} {text : Text} {t after : Table σ}
    {rs : List Substitution} {left number : Nat} {between : Table σ} {expanded : Text}
    {result : Except Error Text} (references : hasReferences text = true)
    (course : Expands observe text t rs between expanded .finished)
    (ends : Ends limits observe left (number + 1) expanded between after result) :
    Ends limits observe (left + 1) number text t after result := by
  cases ends with
  | settled within run finished =>
    exact .settled (Nat.succ_le_succ within) (.next references course run) finished
  | exhausted run more => exact .exhausted (.next references course run) more
  | @interrupted passes _ _ _ reached written stop within run more unfinished early halted =>
    have same : number + 1 + passes = number + (passes + 1) := by omega
    rw [same]
    exact .interrupted (Nat.succ_lt_succ within) (.next references course run) more unfinished
      early halted

theorem Ends.finished {limits : Limits} {observe : Observer σ} {text settled : Text}
    {t after : Table σ} {left number : Nat} {result : Except Error Text}
    (ends : Ends limits observe left number text t after result) (returned : result = .ok settled) :
    hasReferences settled = false := by
  cases ends with
  | settled within run finished =>
    cases returned
    exact finished
  | exhausted => cases returned
  | @interrupted _ _ _ _ _ _ stop _ _ _ _ early =>
    cases stop with
    | finished => exact absurd rfl early
    | halted | refused => cases returned

theorem runPasses_ends {limits : Limits} {observe : Observer σ} (left number : Nat) (text : Text)
    (t : Table σ) :
    Ends limits observe left number text t (runPasses limits observe left number text t).1
        (runPasses limits observe left number text t).2 ∧
      (runPasses limits observe left number text t).1.replaced ≤ max t.replaced limits.draws := by
  have kept : t.replaced ≤ max t.replaced limits.draws := Nat.le_max_left _ _
  -- On the passes left: a pass that finishes leaves one less to the rest, any other is the end.
  induction left generalizing number text t with
  | zero =>
    cases references : hasReferences text with
    | false =>
      rw [runPasses_of_no_references references]
      exact ⟨.settled (Nat.le_refl 0) .none references, kept⟩
    | true =>
      rw [runPasses_zero_of_references references]
      exact ⟨.exhausted .none references, kept⟩
  | succ left ih =>
    cases references : hasReferences text with
    | false =>
      rw [runPasses_of_no_references references]
      exact ⟨.settled (Nat.zero_le _) .none references, kept⟩
    | true =>
      rw [runPasses_of_references references]
      obtain ⟨rs, written, stop, course, answer, halted, bound⟩ :=
        @runPass_follows σ observe limits number text t
      generalize runPass limits observe number text t = o at *
      obtain ⟨between, result⟩ := o
      obtain rfl : result = _ := answer
      have unfinished (early : stop ≠ .finished) :
          Ends limits observe (left + 1) number text t between
            (stop.answer limits ⟨number, text⟩ written) :=
        .interrupted (Nat.succ_pos left) .none references course early halted
      cases stop with
      | finished =>
        obtain ⟨ends, bound'⟩ := ih (number + 1) written between (Nat.le_max_left _ _)
        refine ⟨.next references course ends, ?_⟩
        show (runPasses limits observe left (number + 1) written between).1.replaced ≤ _
        have first : between.replaced ≤ max t.replaced limits.draws := bound
        omega
      | halted => exact ⟨unfinished (by simp), bound⟩
      | refused e => exact ⟨unfinished (by simp), bound⟩

theorem resolve_ends (limits : Limits) (observe : Observer σ) (text : Text) (t : Table σ) :
    Ends limits observe limits.passes 1 text { t with replaced := 0 }
        (resolve limits observe text t).1 (resolve limits observe text t).2 ∧
      (resolve limits observe text t).1.replaced ≤ limits.draws := by
  obtain ⟨ends, bound⟩ :=
    @runPasses_ends σ limits observe limits.passes 1 text { t with replaced := 0 }
  rw [Nat.zero_max] at bound
  exact ⟨ends, bound⟩

theorem runPasses_of_passes {limits : Limits} {observe : Observer σ} {text settled : Text}
    {t after : Table σ} {rs : List Substitution} {passes left : Nat}
    (run : Passes observe passes text t rs after settled) (finished : hasReferences settled = false)
    (within : passes ≤ left) (enough : t.replaced + rs.length ≤ limits.draws) (number : Nat) :
    runPasses limits observe left number text t = (after, .ok settled) := by
  induction run generalizing left number with
  | none => exact runPasses_of_no_references finished left number
  | @next passes text expanded reached t between after rs rs' references course rest ih =>
    rw [List.length_append] at enough
    have counted := course.draws.accounts.replaced
    obtain ⟨more, rfl⟩ : ∃ k, left = k + 1 := ⟨left - 1, by omega⟩
    rw [runPasses_of_references references, runPass_of_course course (by omega), Outcome.andThen_ok]
    exact ih finished (by omega) (by omega) (number + 1)

/-- The limits are exact and truthfully reported, whatever was resolved or drawn from the table
before. A resolution that returns has made no more passes and substitutions than it may. One that
fails for want of passes has made all of them, and the text after the last has references. One that
fails for want of draws has made all of them, in whole passes and in the one that it names, which
began with the text that it reports. Any other error is the observer's. And where the text can be
settled in as many passes and substitutions as there may be, it is. -/
theorem resolve_limits_exact {σ : Type} (limits : Limits) (observe : Observer σ) (text : Text)
    (t : Table σ) :
    ((resolve limits observe text t).Meets
      (fun after settled => ∃ passes rs,
        Passes observe passes text { t with replaced := 0 } rs after settled ∧
        hasReferences settled = false ∧ passes ≤ limits.passes ∧ rs.length ≤ limits.draws)
      fun after e =>
        (∃ rs reached, e = .unfinished limits.passes reached none ∧
          Passes observe limits.passes text { t with replaced := 0 } rs after reached ∧
          hasReferences reached = true ∧ rs.length ≤ limits.draws) ∨
        (∃ (passes : Nat) (rs rs' : List Substitution) (between : Table σ) (reached written : Text),
          e = .unfinished (passes + 1 : Nat) reached (some limits.draws) ∧
          passes + 1 ≤ limits.passes ∧
          Passes observe passes text { t with replaced := 0 } rs between reached ∧
          hasReferences reached = true ∧
          Expands observe reached between rs' after written .halted ∧
          rs.length + rs'.length = limits.draws ∧
          after.consumed = t.consumed ++ removals (rs ++ rs')) ∨
        ∃ passes rs rs' between reached written, passes + 1 ≤ limits.passes ∧
          Passes observe passes text { t with replaced := 0 } rs between reached ∧
          hasReferences reached = true ∧
          Expands observe reached between rs' after written (.refused e) ∧
          rs.length + rs'.length ≤ limits.draws) ∧
    ∀ passes rs after settled,
      Passes observe passes text { t with replaced := 0 } rs after settled →
      hasReferences settled = false → passes ≤ limits.passes → rs.length ≤ limits.draws →
      resolve limits observe text t = (after, .ok settled) := by
  constructor
  · obtain ⟨ends, bound⟩ := resolve_ends limits observe text t
    generalize resolve limits observe text t = o at *
    obtain ⟨after, result⟩ := o
    have draws : after.replaced ≤ limits.draws := bound
    cases ends with
    | settled within run finished =>
      have counted := run.draws.accounts.replaced
      exact ⟨_, _, run, finished, within, by omega⟩
    | exhausted run references =>
      have counted := run.draws.accounts.replaced
      exact .inl ⟨_, _, rfl, run, references, by omega⟩
    | @interrupted passes rs rs' between reached _ stop within run references course early halted =>
      have whole := run.draws.append course.draws
      have counted : after.replaced = 0 + (rs.length + rs'.length) := by
        rw [whole.accounts.replaced, List.length_append]
      have number : 1 + passes = passes + 1 := Nat.add_comm 1 passes
      rw [number]
      cases stop with
      | finished => exact absurd rfl early
      | halted =>
        have spent : limits.draws ≤ after.replaced := halted rfl
        exact .inr (.inl ⟨passes, rs, rs', between, reached, _, rfl, within, run, references,
          course, by omega, whole.accounts.consumed⟩)
      | refused e =>
        exact .inr (.inr ⟨passes, rs, rs', between, reached, _, within, run, references, course,
          by omega⟩)
  · intro passes rs after settled run finished within enough
    exact runPasses_of_passes run finished within (by simpa using enough) 1

theorem resolve_limits_exact_of_nested :
    (resolve ⟨2, 5⟩ .idle nested jeweller).2 = .ok mended ∧
    ∃ rs : List Substitution, rs.length = 2 ∧
      (resolve ⟨1, 2⟩ .idle nested jeweller).2 = .error (.unfinished 1 nested (some 2)) ∧
      (resolve ⟨1, 2⟩ .idle nested jeweller).1.consumed = removals rs := by
  have returned : (resolve ⟨1, 3⟩ .idle nested jeweller).2 = .ok mended := by decide +kernel
  have ended : (resolve ⟨1, 2⟩ .idle nested jeweller).2 =
      .error (.unfinished 1 nested (some 2)) := by
    decide +kernel
  constructor
  · obtain ⟨passes, rs, run, finished, within, enough⟩ :=
      (resolve_limits_exact ⟨1, 3⟩ .idle nested jeweller).1.returned returned
    rw [(resolve_limits_exact ⟨2, 5⟩ .idle nested jeweller).2 passes rs _ _ run finished
      (Nat.le_trans within (by decide)) (Nat.le_trans enough (by decide))]
  · rcases (resolve_limits_exact ⟨1, 2⟩ .idle nested jeweller).1.failed ended with
      ⟨_, _, wrong, -⟩ | ⟨_, rs, rs', _, _, _, -, -, -, -, -, length, consumed⟩ |
      ⟨_, _, _, _, _, _, -, -, -, course, -⟩
    · cases wrong
    · exact ⟨rs ++ rs', by rw [List.length_append, length], ended, consumed⟩
    · cases course.draws.heard_idle

end DrawPile.Reference
