import DrawPile.Proofs.Entry
import DrawPile.Proofs.Reference.Conservation
import DrawPile.Proofs.Reference.Pass

/-! Resolution that only takes. Every substitution destroys the closing brace of its token, and
closing braces come into the text only with entries that leave their decks. So the braces of the
text and of the decks pay for all substitutions, however the texts are nested and whatever the
decks name. -/
namespace DrawPile.Reference
variable {σ : Type} {observe : Observer σ}

def closings (t : Text) : Nat := t.count '\x7d'

/- The closing braces of all stored entries. -/
def storedClosings (decks : Decks) : Nat := closings (decks.flatMap fun deck => deck.2.flatten)

def drawnClosings (rs : List Substitution) : Nat :=
  closings (rs.filterMap Substitution.drawn).flatten

@[simp] theorem closings_append (t u : Text) : closings (t ++ u) = closings t + closings u :=
  List.count_append

theorem closings_eq_zero {t : Text} (absent : '\x7d' ∉ t) : closings t = 0 :=
  List.count_eq_zero.2 absent

@[simp] theorem drawnClosings_append (rs rs' : List Substitution) :
    drawnClosings (rs ++ rs') = drawnClosings rs + drawnClosings rs' := by
  simp [drawnClosings]

theorem closings_split {form : Form} {text : Text} {s : Split} (found : split? form text = some s) :
    closings text = closings s.before + 1 + closings s.after := by
  obtain ⟨inside, part, whole, open_still, -, -⟩ := split?_eq_some found
  have opening : closings ('\x7b' :: inside) = 0 :=
    closings_eq_zero (by simpa using open_still)
  have closing : closings ('\x7d' :: s.after) = closings s.after + 1 := List.count_cons_self
  rw [whole, List.append_assoc, closings_append, closings_append, opening, closing]
  omega

theorem closings_contentOf_le (raw : Text) : closings (Entry.contentOf raw) ≤ closings raw :=
  (Entry.contentOf_suffix raw).sublist.count_le _

theorem closings_invalidReference {name : Text} (absent : '\x7d' ∉ name) :
    closings (invalidReference name) = 0 := by
  have opening : '\x7d' ∉ "[invalid reference: collection \"".toList := by decide
  have closing : '\x7d' ∉ "\" missing or empty]".toList := by decide
  unfold invalidReference
  rw [closings_append, closings_append, closings_eq_zero opening, closings_eq_zero absent,
    closings_eq_zero closing]

/- A diagnostic repeats the name, which has no closing brace. -/
theorem closings_text_le {r : Substitution} (absent : '\x7d' ∉ r.name) :
    closings r.text ≤ drawnClosings [r] := by
  obtain ⟨form, name, drawn⟩ := r
  cases drawn with
  | none =>
    have nothing : closings (Substitution.text ⟨form, name, none⟩) = 0 :=
      closings_invalidReference absent
    omega
  | some raw => simpa [drawnClosings, Substitution.text] using closings_contentOf_le raw

/- The substitutions of a run, and what is left of the closing braces that pay for them. -/
structure Pays (observe : Observer σ) (t : Table σ) (budget : Nat) (rs : List Substitution)
    (after : Table σ) (left : Nat) : Prop where
  run : Draws observe t rs after (.ok ())
  paid : left + rs.length ≤ budget + drawnClosings rs

/- A run that ends before its time: the observer gives the error, or some bound is reached while
there are closing braces left. -/
def EndsEarly (observe : Observer σ) (t : Table σ) (budget : Nat)
    (bound : List Substitution → Table σ → Prop) (after : Table σ) (e : Error) : Prop :=
  ∃ rs heard, Draws observe t rs after heard ∧ rs.length ≤ budget + drawnClosings rs ∧
    (heard = .error e ∨
      heard = .ok () ∧ rs.length < budget + drawnClosings rs ∧ bound rs after)

theorem Pays.trans {t between after : Table σ} {rs rs' : List Substitution}
    {budget middle left : Nat} (first : Pays observe t budget rs between middle)
    (rest : Pays observe between middle rs' after left) :
    Pays observe t budget (rs ++ rs') after left where
  run := first.run.append rest.run
  paid := by
    have first_paid := first.paid
    have rest_paid := rest.paid
    rw [drawnClosings_append, List.length_append]
    omega

theorem Pays.endsEarly {t between after : Table σ} {rs : List Substitution} {budget middle : Nat}
    {bound bound' : List Substitution → Table σ → Prop} {e : Error}
    (first : Pays observe t budget rs between middle)
    (further : ∀ rs', bound' rs' after → bound (rs ++ rs') after)
    (rest : EndsEarly observe between middle bound' after e) :
    EndsEarly observe t budget bound after e := by
  obtain ⟨rs', heard, run, paid, ending⟩ := rest
  have first_paid := first.paid
  refine ⟨rs ++ rs', heard, first.run.append run, ?_, ?_⟩
  · rw [drawnClosings_append, List.length_append]
    omega
  · rcases ending with stopped | ⟨going, strict, reached⟩
    · exact .inl stopped
    · refine .inr ⟨going, ?_, further rs' reached⟩
      rw [drawnClosings_append, List.length_append]
      omega

theorem Pays.add {t after : Table σ} {rs : List Substitution} {budget left : Nat}
    (pays : Pays observe t budget rs after left) (more : Nat) :
    Pays observe t (budget + more) rs after (left + more) :=
  ⟨pays.run, by have paid := pays.paid; omega⟩

theorem Pays.weaken {t after : Table σ} {rs : List Substitution} {budget left less : Nat}
    (pays : Pays observe t budget rs after left) (fewer : less ≤ left) :
    Pays observe t budget rs after less :=
  ⟨pays.run, by have paid := pays.paid; omega⟩

def Spent (limits : Limits) (_ : List Substitution) (t : Table σ) : Prop :=
  limits.draws ≤ t.replaced

/-- A sweep is paid for, and it makes a substitution if there is a token of its form. -/
theorem sweep_pays {limits : Limits} {pass : Pass} {form : Form} (text : Text) (t : Table σ) :
    (sweep limits observe pass form text t).Meets
      (fun after swept => ∃ rs, Pays observe t (closings text) rs after (closings swept) ∧
        ((split? form text).isSome → rs ≠ []))
      (EndsEarly observe t (closings text) (Spent limits)) := by
  induction text using segments.induct form generalizing t with
  | case1 text missing =>
    rw [sweep_of_none missing]
    exact ⟨[], ⟨.done, Nat.le_add_right _ _⟩, by simp [missing]⟩
  | case2 text s found _ _ _ ih =>
    have split := closings_split found
    rw [sweep_of_some found]
    apply (replace_meets limits observe pass form s.name t).andThen
    · rintro between drawn ⟨r, -, same, rfl, step⟩
      -- The token's own brace pays; those before it and those just drawn are put aside.
      have first : Pays observe t (closings text) [r] between
          (closings s.after + (closings s.before + closings r.text)) := by
        refine ⟨.next step .done, ?_⟩
        have brought := closings_text_le (same.symm ▸ not_mem_name found : '\x7d' ∉ r.name)
        rw [List.length_singleton]
        omega
      apply (ih between).andThen
      · rintro after filled ⟨rs, rest, -⟩
        refine ⟨[r] ++ rs, ?_, fun _ => List.cons_ne_nil r rs⟩
        have whole : closings (s.before ++ r.text ++ filled) =
            closings filled + (closings s.before + closings r.text) := by
          rw [closings_append, closings_append, Nat.add_comm]
        rw [whole]
        exact first.trans (rest.add _)
      · intro after e early
        exact (first.weaken (Nat.le_add_right _ _)).endsEarly (fun _ spent => spent) early
    · rintro after e (⟨rfl, spent, -⟩ | ⟨r, -, -, step⟩)
      · exact ⟨[], .ok (), .done, Nat.zero_le _, .inr ⟨rfl, by simp; omega, spent⟩⟩
      · refine ⟨[r], .error e, .stopped step, ?_, .inl rfl⟩
        rw [List.length_singleton]
        omega

theorem runPass_pays {limits : Limits} (number : Nat) (text : Text) (t : Table σ) :
    (runPass limits observe number text t).Meets
      (fun after expanded => ∃ rs, Pays observe t (closings text) rs after (closings expanded) ∧
        (hasReferences text → rs ≠ []))
      (EndsEarly observe t (closings text) (Spent limits)) := by
  cases token : split? .keeping text with
  | none =>
    -- The keeping sweep does nothing, and any token is left to the taking one.
    rw [runPass, sweep_of_none token, Outcome.andThen_ok]
    simpa [hasReferences, token] using sweep_pays text t
  | some s =>
    apply (sweep_pays text t).andThen
    · rintro between swept ⟨rs, first, busy⟩
      have some_made : rs ≠ [] := busy (by rw [token]; rfl)
      apply (sweep_pays swept between).imp
      · rintro after expanded ⟨rs', rest, -⟩
        exact ⟨rs ++ rs', first.trans rest, fun _ => List.append_ne_nil_of_left_ne_nil some_made rs'⟩
      · intro after e early
        exact first.endsEarly (fun _ spent => spent) early
    · exact fun _ _ early => early

theorem closings_pos_of_references {text : Text} (references : hasReferences text) :
    0 < closings text := by
  have of_token {form : Form} {s : Split} (found : split? form text = some s) :
      0 < closings text := by
    rw [closings_split found]
    omega
  simp only [hasReferences, Bool.or_eq_true, Option.isSome_iff_exists] at references
  rcases references with ⟨s, found⟩ | ⟨s, found⟩
  · exact of_token found
  · exact of_token found

theorem runPasses_pays {limits : Limits} (left number : Nat) (text : Text) (t : Table σ) :
    (runPasses limits observe left number text t).Meets
      (fun after settled => ∃ rs, Pays observe t (closings text) rs after (closings settled))
      (EndsEarly observe t (closings text) fun rs after =>
        Spent limits rs after ∨ left ≤ rs.length) := by
  induction left generalizing number text t with
  | zero =>
    cases references : hasReferences text with
    | false =>
      rw [runPasses_of_no_references references]
      exact ⟨[], .done, Nat.le_add_right _ _⟩
    | true =>
      rw [runPasses_zero_of_references references]
      have positive := closings_pos_of_references references
      refine ⟨[], .ok (), .done, Nat.zero_le _, .inr ⟨rfl, ?_, .inr (Nat.zero_le _)⟩⟩
      rw [List.length_nil]
      omega
  | succ left ih =>
    cases references : hasReferences text with
    | false =>
      rw [runPasses_of_no_references references]
      exact ⟨[], .done, Nat.le_add_right _ _⟩
    | true =>
      rw [runPasses_of_references references]
      apply (runPass_pays number text t).andThen
      · rintro between expanded ⟨rs, first, busy⟩
        have made : 0 < rs.length := List.length_pos_iff.2 (busy references)
        apply (ih (number + 1) expanded between).imp
        · rintro after settled ⟨rs', rest⟩
          exact ⟨rs ++ rs', first.trans rest⟩
        · intro after e early
          apply first.endsEarly _ early
          rintro rs' (spent | passed)
          · exact .inl spent
          · right
            rw [List.length_append]
            omega
      · intro after e early
        exact (Pays.endsEarly ⟨.done, Nat.le_refl _⟩ (fun _ spent => .inl spent) early)

theorem storedClosings_put {decks : Decks} {name : Text} {entries : List Text}
    (found : decks.get? name = some entries) (others : List Text) :
    storedClosings (decks.put name others) + closings entries.flatten =
      storedClosings decks + closings others.flatten := by
  obtain ⟨front, back, rfl, absent⟩ := Catalog.split_of_get? found
  rw [Catalog.put_split absent]
  simp only [storedClosings, List.flatMap_append, List.flatMap_cons, closings_append]
  omega

theorem closings_eraseIdx {entries : List Text} {place : Nat} {raw : Text}
    (there : entries[place]? = some raw) :
    closings raw + closings (entries.eraseIdx place).flatten = closings entries.flatten := by
  obtain ⟨below, rfl⟩ := List.getElem?_eq_some_iff.1 there
  have same := (List.getElem_cons_eraseIdx_perm below).flatten.count_eq '\x7d'
  rw [List.flatten_cons] at same
  exact (closings_append _ _).symm.trans same

theorem Substitutes.stored {t after : Table σ} {heard : Except Error Unit} {r : Substitution}
    (step : Substitutes observe t r after heard) (not_kept : r.form = .keeping → r.drawn = none) :
    drawnClosings [r] + storedClosings after.decks = storedClosings t.decks := by
  cases step with
  | missing => exact Nat.zero_add _
  | kept => cases not_kept rfl
  | @taken name raw there =>
    have drawn : drawnClosings [⟨.taking, name, some raw⟩] = closings raw := by
      simp [drawnClosings]
    have put := storedClosings_put (Table.get?_of_entries there)
      ((t.entries name).eraseIdx (nextPlace t name))
    have erased := closings_eraseIdx there
    rw [drawn]
    show closings raw + storedClosings (t.decks.put name _) = _
    omega

def NothingKept (rs : List Substitution) : Prop := ∀ r ∈ rs, r.form = .keeping → r.drawn = none

theorem Draws.stored {t after : Table σ} {rs : List Substitution} {heard : Except Error Unit}
    (run : Draws observe t rs after heard) (nothing_kept : NothingKept rs) :
    drawnClosings rs + storedClosings after.decks = storedClosings t.decks := by
  induction run with
  | done => exact Nat.zero_add _
  | @next t between after r rs heard first _ ih =>
    have step := first.stored (nothing_kept r List.mem_cons_self)
    have rest := ih fun r member => nothing_kept r (List.mem_cons_of_mem _ member)
    have split : drawnClosings (r :: rs) = drawnClosings [r] + drawnClosings rs :=
      drawnClosings_append [r] rs
    omega
  | stopped last => exact last.stored (nothing_kept _ List.mem_cons_self)

def Substitution.keeps (r : Substitution) : Bool := r.form == .keeping && r.drawn.isSome

theorem countP_drawn (rs : List Substitution) :
    (rs.countP fun r => r.drawn.isSome) =
      (removals rs).length + rs.countP Substitution.keeps := by
  induction rs with
  | nil => rfl
  | cons r rs ih =>
    have head : removals (r :: rs) = r.removal?.toList ++ removals rs := by
      cases taken : r.removal? <;> simp [removals, taken]
    rw [List.countP_cons, List.countP_cons, head, List.length_append, ih]
    obtain ⟨form, name, drawn⟩ := r
    cases form <;> cases drawn <;> simp [Substitution.removal?, Substitution.keeps] <;> omega

/-- Nothing is kept where the source was called for no more than the entries taken out. -/
theorem nothingKept_iff {rs : List Substitution} :
    NothingKept rs ↔ (rs.countP fun r => r.drawn.isSome) = (removals rs).length := by
  have none_keeps : NothingKept rs ↔ rs.countP Substitution.keeps = 0 := by
    rw [List.countP_eq_zero]
    simp [NothingKept, Substitution.keeps]
  rw [none_keeps, countP_drawn]
  omega

/- Runs from one table to one other keep the same books. -/
theorem Draws.same_books {t after : Table σ} {rs rs' : List Substitution}
    {heard heard' : Except Error Unit} (run : Draws observe t rs after heard)
    (run' : Draws observe t rs' after heard') :
    rs.length = rs'.length ∧ heard = heard' ∧ (NothingKept rs ↔ NothingKept rs') := by
  have books := run.accounts
  have books' := run'.accounts
  have length : rs.length = rs'.length := by
    have sum := books.replaced
    have sum' := books'.replaced
    omega
  have removed : removals rs = removals rs' :=
    List.append_cancel_left (books.consumed.symm.trans books'.consumed)
  have answer : heard = heard' := by
    have told := books.told
    rw [removed, books'.told] at told
    exact (Prod.ext_iff.1 told).2.symm
  have calls : (rs.countP fun r => r.drawn.isSome) = rs'.countP fun r => r.drawn.isSome := by
    have sum := books.calls
    have sum' := books'.calls
    omega
  exact ⟨length, answer, by rw [nothingKept_iff, nothingKept_iff, removed, calls]⟩

/-- In a resolution whose substitutions `rs` keep no entry that they draw, the closing braces of
the text and of the stored entries bound the substitutions. Where the limits are no less than this
bound the resolution returns, unless the observer stops it. -/
theorem resolve_settles {σ : Type} {limits : Limits} {observe : Observer σ} {text : Text}
    {t : Table σ} {rs : List Substitution} {heard : Except Error Unit}
    (run : Draws observe { t with replaced := 0 } rs (resolve limits observe text t).1 heard)
    (nothing_kept : ∀ r ∈ rs, r.form = .keeping → r.drawn = none) :
    rs.length ≤ closings text + storedClosings t.decks ∧
      (max 1 (closings text + storedClosings t.decks) ≤ limits.passes →
        max 1 (closings text + storedClosings t.decks) ≤ limits.draws →
        ∃ settled, (resolve limits observe text t).2 = heard.map fun _ => settled) := by
  have meets : (resolve limits observe text t).Meets
      (fun after settled => ∃ rs,
        Pays observe { t with replaced := 0 } (closings text) rs after (closings settled))
      (EndsEarly observe { t with replaced := 0 } (closings text) fun rs after =>
        Spent limits rs after ∨ limits.passes ≤ rs.length) :=
    runPasses_pays limits.passes 1 text _
  generalize resolve limits observe text t = o at meets run
  -- What is known of the run is known of its paid telling: it is as long, and keeps nothing either.
  have kept := run.stored nothing_kept
  have total : rs.length = o.1.replaced := by simpa using run.accounts.replaced.symm
  have stored : storedClosings { t with replaced := 0 }.decks = storedClosings t.decks := rfl
  rcases o with ⟨after, e | settled⟩
  · obtain ⟨rs', heard', run', paid, ending⟩ := meets
    obtain ⟨length, rfl, same⟩ := run.same_books run'
    have kept' := run'.stored (same.1 nothing_kept)
    rcases ending with rfl | ⟨rfl, strict, bound⟩
    · exact ⟨by omega, fun _ _ => ⟨[], rfl⟩⟩
    · refine ⟨by omega, fun enough_passes enough_draws => ?_⟩
      rcases bound with spent | passed
      · have draws : limits.draws ≤ rs.length := total ▸ spent
        omega
      · omega
  · obtain ⟨rs', run', paid⟩ := meets
    obtain ⟨length, rfl, same⟩ := run.same_books run'
    have kept' := run'.stored (same.1 nothing_kept)
    exact ⟨by omega, fun _ _ => ⟨settled, rfl⟩⟩

def loop : Table Unit where
  decks := [("a".toList, ["\x7ba\x7d\x7ba\x7d".toList, "\x7b%b\x7d".toList])]
  source := .cycle #[]
  host := ()

theorem resolve_settles_of_loop :
    ∃ rs, NothingKept rs ∧ rs.length ≤ 4 ∧
      ∃ settled, (resolve ⟨4, 4⟩ .idle "\x7ba\x7d".toList loop).2 = .ok settled := by
  obtain ⟨rs, heard, run, -⟩ := performs_resolve ⟨4, 4⟩ .idle "\x7ba\x7d".toList loop
  have nothing_kept : NothingKept rs := by
    have calls : (resolve ⟨4, 4⟩ .idle "\x7ba\x7d".toList loop).1.source.calls = 2 := by
      decide +kernel
    have consumed : (resolve ⟨4, 4⟩ .idle "\x7ba\x7d".toList loop).1.consumed.length = 2 := by
      decide +kernel
    have called := run.accounts.calls
    rw [run.accounts.consumed] at consumed
    simp only [loop, Source.cycle, List.nil_append] at called consumed calls
    rw [nothingKept_iff]
    omega
  have bound : closings "\x7ba\x7d".toList + storedClosings loop.decks = 4 := by decide
  have settles := resolve_settles run nothing_kept
  rw [bound] at settles
  obtain ⟨settled, returned⟩ := settles.2 (Nat.le_refl 4) (Nat.le_refl 4)
  exact ⟨rs, nothing_kept, settles.1, settled, by rw [returned, run.heard_idle]; rfl⟩

end DrawPile.Reference
