import DrawPile.Proofs.Reference.Clean
import DrawPile.Proofs.Reference.Conservation
import DrawPile.Proofs.Reference.Limits

/-! Decks without cycles. Where every entry names only what ranks below its own deck, each pass
takes the highest rank off the text: what a keeping token leaves for the taking sweep ranked
highest before the pass, and what either sweep brings in ranks below. So the passes are as many as
the ranks at most. -/
namespace DrawPile.Reference
variable {σ : Type} {t : Table σ} {rank : Text → Nat}

/- Entries are clean, and their tokens name what ranks below the deck. -/
def Ranked (rank : Text → Nat) (t : Table σ) : Prop :=
  ∀ name, ∀ raw ∈ t.entries name,
    Clean (fun _ inner => rank inner < rank name) (Entry.contentOf raw)

/- A resolution ends early for want of draws, or because the observer gave an error. -/
def Halts (limits : Limits) (observe : Observer σ) (e : Error) : Prop :=
  (∃ pass reached, e = .unfinished pass reached (some limits.draws)) ∨
    ∃ removal host, (observe removal host).2 = .error e

theorem bare_invalidReference {name : Text} (bare : Bare name) : Bare (invalidReference name) := by
  have opening : Bare "[invalid reference: collection \"".toList := by decide
  have closing : Bare "\" missing or empty]".toList := by decide
  exact (opening.append bare).append closing

theorem clean_invalidReference {kind : Form → Text → Prop} {name : Text} (bare : Bare name) :
    Clean kind (invalidReference name) := .of_bare (bare_invalidReference bare)

theorem Substitutes.ranked {observe : Observer σ} {r : Substitution} {after : Table σ}
    {heard : Except Error Unit} (step : Substitutes observe t r after heard)
    (ranked : Ranked rank t) : Ranked rank after := by
  intro name raw member
  exact ranked name raw ((step.accounts.survivors name).subset member)

theorem Substitutes.clean_text {observe : Observer σ} {r : Substitution} {after : Table σ}
    {heard : Except Error Unit} (step : Substitutes observe t r after heard)
    (ranked : Ranked rank t) (bare : Bare r.name) :
    Clean (fun _ inner => rank inner < rank r.name) r.text := by
  cases step with
  | missing empty => exact clean_invalidReference bare
  | kept there => exact ranked _ _ (List.mem_of_getElem? there)
  | taken there => exact ranked _ _ (List.mem_of_getElem? there)

theorem replace_ranked {limits : Limits} {observe : Observer σ} {pass : Pass} {form : Form}
    (ranked : Ranked rank t) {name : Text} (bare : Bare name) :
    (replace limits observe pass form name t).Meets
      (fun t drawn => Ranked rank t ∧ Clean (fun _ inner => rank inner < rank name) drawn)
      fun _ e => Halts limits observe e := by
  apply (replace_meets limits observe pass form name t).imp
  · rintro t' drawn ⟨r, -, rfl, rfl, step⟩
    exact ⟨step.ranked ranked, step.clean_text ranked bare⟩
  · rintro t' e (⟨-, -, rfl⟩ | ⟨r, -, -, step⟩)
    · exact .inl ⟨_, _, rfl⟩
    · exact .inr step.answer

/-- A sweep leaves the tokens of the other form, and brings in such as rank below the ones that it
replaces. -/
theorem sweep_ranked {limits : Limits} {observe : Observer σ} {pass : Pass} {form : Form}
    {text : Text} {kind other : Form → Text → Prop} (ranked : Ranked rank t)
    (clean : Clean kind text) (left : ∀ f name, f ≠ form → kind f name → other f name)
    (brought : ∀ name, kind form name → ∀ f inner, rank inner < rank name → other f inner) :
    (sweep limits observe pass form text t).Meets
      (fun t swept => Ranked rank t ∧ Clean other swept) fun _ e => Halts limits observe e := by
  have weaker : ∀ f name, Besides form kind f name → other f name :=
    fun f name known => left f name known.1 known.2
  induction text using segments.induct form generalizing t with
  | case1 text missing =>
    rw [sweep_of_none missing]
    exact ⟨ranked, (clean.of_none missing).mono weaker⟩
  | case2 text s found _ _ _ ih =>
    obtain ⟨front, bare, named, rest⟩ := clean.of_some found
    rw [sweep_of_some found]
    apply (replace_ranked ranked bare).andThen
    · rintro t drawn ⟨ranked, clean_drawn⟩
      have clean_front := (front.mono weaker).append (clean_drawn.mono (brought s.name named))
      apply (ih ranked rest).map
      rintro t filled ⟨ranked, clean_filled⟩
      exact ⟨ranked, clean_front.append clean_filled⟩
    · exact fun _ _ halts => halts

/- What a text may name between the two sweeps of a pass: the highest rank is left to the taking
sweep. -/
def Midway (rank : Text → Nat) (highest : Nat) (form : Form) (name : Text) : Prop :=
  rank name < highest ∨ form = .taking ∧ rank name = highest

theorem runPass_ranked {limits : Limits} {observe : Observer σ} {text : Text}
    (ranked : Ranked rank t) {highest : Nat}
    (clean : Clean (fun _ name => rank name < highest + 1) text) (number : Nat) :
    (runPass limits observe number text t).Meets
      (fun t expanded => Ranked rank t ∧ Clean (fun _ name => rank name < highest) expanded)
      fun _ e => Halts limits observe e := by
  -- What the keeping sweep brings in ranks below what it replaces, so nothing new ranks highest.
  have kept : (sweep limits observe ⟨number, text⟩ .keeping text t).Meets
      (fun t swept => Ranked rank t ∧ Clean (Midway rank highest) swept)
      fun _ e => Halts limits observe e := by
    apply sweep_ranked ranked clean
    · intro f name different below
      cases f with
      | keeping => exact absurd rfl different
      | taking => exact (Nat.lt_succ_iff_lt_or_eq.1 below).imp_right fun same => ⟨rfl, same⟩
    · intro name below f inner lower
      exact .inl (Nat.lt_of_lt_of_le lower (Nat.le_of_lt_succ below))
  apply kept.andThen
  · rintro t swept ⟨ranked, clean⟩
    apply sweep_ranked ranked clean
    · rintro f name different (below | ⟨taking, -⟩)
      · exact below
      · exact absurd taking different
    · rintro name (below | ⟨-, highest_rank⟩) f inner lower
      · exact Nat.lt_trans lower below
      · exact highest_rank ▸ lower
  · exact fun _ _ halts => halts

theorem runPasses_ranked {limits : Limits} {observe : Observer σ} {text : Text}
    (ranked : Ranked rank t) {bound left : Nat} (enough : bound ≤ left)
    (clean : Clean (fun _ name => rank name < bound) text) (number : Nat) :
    (runPasses limits observe left number text t).Meets (fun _ _ => True)
      fun _ e => Halts limits observe e := by
  -- One pass takes one from the bound on the ranks and one from the passes left.
  induction bound generalizing left number text t with
  | zero =>
    have finished := clean.no_references fun _ name => Nat.not_lt_zero (rank name)
    rw [runPasses_of_no_references finished]
    trivial
  | succ bound ih =>
    cases references : hasReferences text with
    | false =>
      rw [runPasses_of_no_references references]
      trivial
    | true =>
      obtain ⟨left, rfl⟩ : ∃ k, left = k + 1 := ⟨left - 1, by omega⟩
      rw [runPasses_of_references references]
      apply (runPass_ranked ranked clean number).andThen
      · rintro t expanded ⟨ranked, clean⟩
        exact ih ranked (Nat.le_of_succ_le_succ enough) clean (number + 1)
      · exact fun _ _ halts => halts

/-- Where entries name only what ranks below their deck, as many passes as there are ranks in the
text are enough: the resolution returns, unless its draws are used up or the observer stops it. -/
theorem resolve_acyclic {σ : Type} {limits : Limits} {text : Text} {t : Table σ} (rank : Text → Nat)
    (bound : Nat) (ranked : ∀ name, ∀ raw ∈ t.entries name,
      Clean (fun _ inner => rank inner < rank name) (Entry.contentOf raw))
    (clean : Clean (fun _ name => rank name < bound) text) (enough : bound ≤ limits.passes)
    (observe : Observer σ) :
    (∃ settled, (resolve limits observe text t).2 = .ok settled) ∨
      (∃ pass reached, (resolve limits observe text t).2 =
        .error (.unfinished pass reached (some limits.draws))) ∨
      ∃ removal host e, (observe removal host).2 = .error e ∧
        (resolve limits observe text t).2 = .error e := by
  have start : Ranked rank { t with replaced := 0 } := ranked
  have meets : (resolve limits observe text t).Meets (fun _ _ => True)
      fun _ e => Halts limits observe e := runPasses_ranked start enough clean 1
  generalize resolve limits observe text t = o at meets
  rcases o with ⟨after, e | settled⟩
  · rcases meets with ⟨pass, reached, rfl⟩ | ⟨removal, host, answer⟩
    · exact .inr (.inl ⟨pass, reached, rfl⟩)
    · exact .inr (.inr ⟨removal, host, e, answer, rfl⟩)
  · exact .inl ⟨settled, rfl⟩

def treasuryRank (name : Text) : Nat := if name = "ring".toList then 1 else 0

theorem treasury_ranked (name : Text) : ∀ raw ∈ treasury.entries name,
    Clean (fun _ inner => treasuryRank inner < treasuryRank name) (Entry.contentOf raw) := by
  intro raw member
  by_cases gem : "gem".toList = name
  · subst gem
    have plain : ∀ raw ∈ treasury.entries "gem".toList, Bare (Entry.contentOf raw) := by decide
    exact .of_bare (plain raw member)
  · by_cases ring : "ring".toList = name
    · subst ring
      have only : raw = "a \x7bgem\x7d ring".toList := List.mem_singleton.1 member
      have first : Bare "a ".toList := by decide
      have last : Bare " ring".toList := by decide
      rw [only]
      exact (Clean.of_bare first).append
        (@Clean.token _ .taking "gem".toList _ (by decide) (by decide) (by decide) (by decide)
          (.of_bare last))
    · have nothing : treasury.decks.get? name = none := (if_neg gem).trans (if_neg ring)
      rw [Table.entries, nothing] at member
      cases member

theorem order_clean : Clean (fun _ name => treasuryRank name < 2) order := by
  have between : Bare " and ".toList := by decide
  exact @Clean.token _ .keeping "ring".toList _ (by decide) (by decide) (by decide) (by decide)
    ((Clean.of_bare between).append
      (@Clean.token _ .taking "gem".toList _ (by decide) (by decide) (by decide) (by decide) .nil))

theorem resolve_acyclic_of_treasury :
    Clean (fun _ name => treasuryRank name < 2) order ∧
      ((∃ settled, (resolve ⟨2, 2⟩ .idle order treasury).2 = .ok settled) ∨
        ∃ pass reached, (resolve ⟨2, 2⟩ .idle order treasury).2 =
          .error (.unfinished pass reached (some 2))) := by
  refine ⟨order_clean, ?_⟩
  have enough : 2 ≤ (⟨2, 2⟩ : Limits).passes := Nat.le_refl 2
  rcases resolve_acyclic treasuryRank 2 treasury_ranked order_clean enough .idle with
    settled | refused | ⟨_, _, _, answer, -⟩
  · exact .inl settled
  · exact .inr refused
  · cases answer

end DrawPile.Reference
