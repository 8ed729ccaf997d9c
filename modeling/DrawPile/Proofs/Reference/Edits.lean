import DrawPile.Proofs.Reference.Passes

/-! What a resolution does to its text. A sweep is told by the tokens that it replaces, each with
the text before it and with the substitution that takes its place; the next sweep goes over what the
one before has written. -/
namespace DrawPile.Reference
variable {form : Form} {text : Text} {xs : List Replacement}

/-- A token replaced: the text between it and the token before, what stood between its braces, and
the substitution made. -/
structure Replacement where
  before : Text
  inside : Text
  made : Substitution

def Replacement.token (x : Replacement) : Text := '\x7b' :: x.inside ++ ['\x7d']

/-- A text put together from what stands before each token, a part in the place of the token, and
the text behind the last one. -/
def assemble (part : Replacement → Text) : List Replacement → Text → Text
  | [], rest => rest
  | x :: xs, rest => x.before ++ part x ++ assemble part xs rest

def rewritten (xs : List Replacement) (rest : Text) : Text := assemble (fun x => x.made.text) xs rest

/-- The first tokens of a form in a text are replaced, and `rest` stands behind the last of them. -/
inductive Cuts (form : Form) : Text → List Replacement → Text → Prop
  | none {text : Text} : Cuts form text [] text
  | next {text after rest : Text} {x : Replacement} {xs : List Replacement}
      (first : IsFirst form text ⟨x.before, x.made.name, after⟩) (own : x.made.form = form)
      (whole : text = x.before ++ x.token ++ after) (further : Cuts form after xs rest) :
      Cuts form text (x :: xs) rest

/-- Tokens replaced in sweeps, each of which goes over what the one before has written. -/
inductive Edits : Text → List Replacement → Text → Prop
  | none {text : Text} : Edits text [] text
  | sweep {form : Form} {text rest reached : Text} {xs ys : List Replacement}
      (cuts : Cuts form text xs rest) (further : Edits (rewritten xs rest) ys reached) :
      Edits text (xs ++ ys) reached

/- What stands between the braces is a token of the form, up to the first closing brace, and the
name looked up is its trimmed name part. -/
def Replacement.Proper (x : Replacement) : Prop :=
  '\x7d' ∉ x.inside ∧ ∃ part, Inside x.made.form x.inside part ∧ x.made.name = Text.trim part

theorem IsFirst.proper {x : Replacement} {after : Text}
    (first : IsFirst form text ⟨x.before, x.made.name, after⟩) (own : x.made.form = form)
    (whole : text = x.before ++ x.token ++ after) : x.Proper := by
  obtain ⟨inside, part, whole', open_still, ok, trimmed⟩ := first.token
  have same : inside = x.inside := by simpa [Replacement.token] using whole'.symm.trans whole
  subst same own
  exact ⟨open_still, part, ok, trimmed⟩

theorem Cuts.proper {rest : Text} (cuts : Cuts form text xs rest) : ∀ x ∈ xs, x.Proper := by
  induction cuts with
  | none => exact List.forall_mem_nil _
  | next first own whole _ ih => exact List.forall_mem_cons.2 ⟨first.proper own whole, ih⟩

theorem Cuts.assembled {rest : Text} (cuts : Cuts form text xs rest) :
    text = assemble Replacement.token xs rest := by
  induction cuts with
  | none => rfl
  | next _ _ whole _ ih => rw [assemble, ← ih, whole]

theorem Edits.proper {reached : Text} (edits : Edits text xs reached) : ∀ x ∈ xs, x.Proper := by
  induction edits with
  | none => exact List.forall_mem_nil _
  | sweep cuts _ ih => exact List.forall_mem_append.2 ⟨cuts.proper, ih⟩

theorem Edits.append {between reached : Text} {ys : List Replacement}
    (first : Edits text xs between) (further : Edits between ys reached) :
    Edits text (xs ++ ys) reached := by
  induction first with
  | none => exact further
  | sweep cuts _ ih =>
    rw [List.append_assoc]
    exact .sweep cuts (ih further)

theorem Cuts.edits {rest : Text} (cuts : Cuts form text xs rest) :
    Edits text xs (rewritten xs rest) := by
  simpa using Edits.sweep cuts .none

theorem count_assemble (c : Char) (part : Replacement → Text) (xs : List Replacement)
    (rest : Text) :
    (assemble part xs rest).count c =
      (xs.flatMap Replacement.before).count c + (xs.flatMap part).count c + rest.count c := by
  induction xs with
  | nil => simp [assemble]
  | cons x xs ih =>
    simp only [assemble, List.flatMap_cons, List.count_append, ih]
    omega

theorem Edits.balance {reached : Text} (edits : Edits text xs reached) (c : Char) :
    reached.count c + (xs.flatMap Replacement.token).count c =
      text.count c + (xs.flatMap fun x => x.made.text).count c := by
  induction edits with
  | none => rfl
  | @sweep _ text rest reached xs ys cuts _ ih =>
    have before : text.count c = _ := (congrArg (List.count c) cuts.assembled).trans
      (count_assemble c Replacement.token xs rest)
    have behind := count_assemble c (fun x => x.made.text) xs rest
    simp only [rewritten] at ih
    simp only [List.flatMap_append, List.count_append]
    omega

theorem IsFirst.cut {s : Split} {r : Substitution} (first : IsFirst form text s)
    (own : r.form = form) (named : r.name = s.name) :
    ∃ inside, ∀ xs rest, Cuts form s.after xs rest →
      Cuts form text (⟨s.before, inside, r⟩ :: xs) rest := by
  obtain ⟨inside, part, whole, -⟩ := first.token
  refine ⟨inside, fun xs rest further => .next ?_ own ?_ further⟩
  · rw [named]
    exact first
  · simpa [Replacement.token] using whole

/-- A sweep replaces the first tokens of the text; one that is finished has left none. -/
theorem Sweeps.cuts {σ : Type} {observe : Observer σ} {written : Text} {t after : Table σ}
    {rs : List Substitution} {stop : Stop}
    (course : Sweeps observe form text t rs after written stop) :
    ∃ xs rest, Cuts form text xs rest ∧ xs.map Replacement.made = rs ∧
      (stop = .finished → Plain form rest ∧ written = rewritten xs rest) := by
  induction course with
  | @finished text t plain => exact ⟨[], text, .none, rfl, fun _ => ⟨plain, rfl⟩⟩
  | @halted text t s first => exact ⟨[], text, .none, rfl, fun wrong => by cases wrong⟩
  | @refused text t after s r e first own named step =>
    obtain ⟨inside, cut⟩ := first.cut own named
    exact ⟨_, s.after, cut [] s.after .none, rfl, fun wrong => by cases wrong⟩
  | @next text written t between after s r rs stop first own named step _ ih =>
    obtain ⟨xs, rest, cuts, rfl, finished⟩ := ih
    obtain ⟨inside, cut⟩ := first.cut own named
    refine ⟨_, rest, cut xs rest cuts, rfl, fun ended => ?_⟩
    obtain ⟨plain, rfl⟩ := finished ended
    exact ⟨plain, rfl⟩

theorem Expands.edits {σ : Type} {observe : Observer σ} {written : Text} {t after : Table σ}
    {rs : List Substitution} {stop : Stop} (course : Expands observe text t rs after written stop) :
    ∃ xs reached, Edits text xs reached ∧ xs.map Replacement.made = rs ∧
      (stop = .finished → reached = written) := by
  cases course with
  | stopped early keeping =>
    obtain ⟨xs, rest, cuts, made, -⟩ := keeping.cuts
    exact ⟨xs, _, cuts.edits, made, fun finished => absurd finished early⟩
  | swept keeping taking =>
    obtain ⟨xs, rest, cuts, rfl, finished⟩ := keeping.cuts
    obtain ⟨ys, rest', cuts', rfl, finished'⟩ := taking.cuts
    obtain ⟨-, rfl⟩ := finished rfl
    refine ⟨xs ++ ys, _, cuts.edits.append cuts'.edits, List.map_append, ?_⟩
    exact fun ended => (finished' ended).2.symm

theorem Passes.edits {σ : Type} {observe : Observer σ} {reached : Text} {t after : Table σ}
    {rs : List Substitution} {passes : Nat} (run : Passes observe passes text t rs after reached) :
    ∃ xs, Edits text xs reached ∧ xs.map Replacement.made = rs := by
  induction run with
  | none => exact ⟨[], .none, rfl⟩
  | next _ course _ ih =>
    obtain ⟨xs, _, edits, rfl, finished⟩ := course.edits
    obtain ⟨ys, edits', rfl⟩ := ih
    obtain rfl := finished rfl
    exact ⟨xs ++ ys, edits.append edits', List.map_append⟩

theorem Ends.edits {σ : Type} {observe : Observer σ} {t after : Table σ} {limits : Limits}
    {left number : Nat} {result : Except Error Text}
    (ends : Ends limits observe left number text t after result) :
    ∃ xs reached, Edits text xs reached ∧
      (∃ heard, Draws observe t (xs.map Replacement.made) after heard) ∧
      ∀ settled, result = .ok settled → reached = settled := by
  cases ends with
  | @settled passes rs settled within run finished =>
    obtain ⟨xs, edits, rfl⟩ := run.edits
    exact ⟨xs, settled, edits, ⟨_, run.draws⟩, fun _ same => Except.ok.inj same⟩
  | @exhausted rs reached run references =>
    obtain ⟨xs, edits, rfl⟩ := run.edits
    exact ⟨xs, reached, edits, ⟨_, run.draws⟩, fun _ wrong => by cases wrong⟩
  | @interrupted passes rs rs' between reached written stop within run references course early =>
    obtain ⟨xs, edits, rfl⟩ := run.edits
    obtain ⟨ys, part, edits', rfl, -⟩ := course.edits
    refine ⟨xs ++ ys, part, edits.append edits', ⟨stop.told, ?_⟩, ?_⟩
    · rw [List.map_append]
      exact run.draws.append course.draws
    · intro settled returned
      cases stop with
      | finished => exact absurd rfl early
      | halted | refused => cases returned

/-- The tokens that a resolution replaces in its text, whether it returns or not, and the text that
it has reached with them. Their substitutions lead to the table that it leaves. -/
structure Replaces {σ : Type} (limits : Limits) (observe : Observer σ) (text : Text) (t : Table σ)
    (xs : List Replacement) (reached : Text) : Prop where
  edits : Edits text xs reached
  draws : ∃ heard, Draws observe { t with replaced := 0 } (xs.map Replacement.made)
    (resolve limits observe text t).1 heard
  settled : ∀ settled, (resolve limits observe text t).2 = .ok settled → reached = settled

theorem exists_replaces {σ : Type} (limits : Limits) (observe : Observer σ) (text : Text)
    (t : Table σ) :
    ∃ xs reached, Replaces limits observe text t xs reached := by
  obtain ⟨xs, reached, edits, draws, settled⟩ := (resolve_ends limits observe text t).1.edits
  exact ⟨xs, reached, edits, draws, settled⟩

end DrawPile.Reference
