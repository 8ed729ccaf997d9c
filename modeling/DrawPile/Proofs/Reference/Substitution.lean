import DrawPile.Proofs.Outcome
import DrawPile.Reference.Resolution

/-! What a resolution does to the table, one reference after another. A resolution is told apart
from its text here: it is a list of substitutions, each of which draws from the table that the one
before left, up to the last or to the first that the observer stops. -/
namespace DrawPile

theorem Source.pick_snd (s : Source) (length : Nat) :
    (s.pick length).2 = { s with calls := s.calls + 1 } := by
  unfold Source.pick pickIndex
  rw [Source.scaled_eq]
  cases (s.values s.calls).scale? length <;> simp

theorem Source.pick_lt (s : Source) {length : Nat} (positive : 0 < length) :
    (s.pick length).1 < length := by
  unfold Source.pick pickIndex
  rw [Source.scaled_eq]
  cases (s.values s.calls).scale? length with
  | none =>
    show length - 1 < length
    omega
  | some n =>
    show (min n ((length : Int) - 1)).toNat < length
    omega

theorem Table.get?_of_entries {σ : Type} {t : Table σ} {name raw : Text} {place : Nat}
    (there : (t.entries name)[place]? = some raw) :
    t.decks.get? name = some (t.entries name) := by
  unfold Table.entries at *
  cases found : t.decks.get? name with
  | none => simp [found] at there
  | some entries => rfl

namespace Reference
variable {σ : Type}

/-- One reference replaced: its form, its name and the entry drawn, if the deck had any. -/
structure Substitution where
  form : Form
  name : Text
  drawn : Option Text
  deriving DecidableEq, Repr

namespace Substitution

def text (r : Substitution) : Text :=
  match r.drawn with
  | some raw => Entry.contentOf raw
  | none => invalidReference r.name

def removal? (r : Substitution) : Option Removal :=
  match r.form with
  | .keeping => none
  | .taking => r.drawn.map fun raw => ⟨r.name, raw⟩

end Substitution

def removals (rs : List Substitution) : List Removal := rs.filterMap Substitution.removal?

def nextPlace (t : Table σ) (name : Text) : Nat := (t.source.pick (t.entries name).length).1

def drew (t : Table σ) : Table σ :=
  { t with
    replaced := t.replaced + 1
    source := { t.source with calls := t.source.calls + 1 } }

/-- The table after one substitution, and what the observer answered. -/
inductive Substitutes (observe : Observer σ) (t : Table σ) :
    Substitution → Table σ → Except Error Unit → Prop
  | missing {form : Form} {name : Text} (empty : t.entries name = []) :
      Substitutes observe t ⟨form, name, none⟩
        { t with replaced := t.replaced + 1, warnings := t.warnings ++ [.missingDeck name] }
        (.ok ())
  | kept {name raw : Text} (there : (t.entries name)[nextPlace t name]? = some raw) :
      Substitutes observe t ⟨.keeping, name, some raw⟩ (drew t) (.ok ())
  | taken {name raw : Text} (there : (t.entries name)[nextPlace t name]? = some raw) :
      Substitutes observe t ⟨.taking, name, some raw⟩
        { drew t with
          decks := t.decks.put name ((t.entries name).eraseIdx (nextPlace t name))
          consumed := t.consumed ++ [⟨name, raw⟩]
          host := (observe ⟨name, raw⟩ t.host).1 }
        (observe ⟨name, raw⟩ t.host).2

/-- Substitutions one after another; an error of the observer ends them. -/
inductive Draws (observe : Observer σ) :
    Table σ → List Substitution → Table σ → Except Error Unit → Prop
  | done {t : Table σ} : Draws observe t [] t (.ok ())
  | next {t between after : Table σ} {r : Substitution} {rs : List Substitution}
      {heard : Except Error Unit} (first : Substitutes observe t r between (.ok ()))
      (rest : Draws observe between rs after heard) : Draws observe t (r :: rs) after heard
  | stopped {t after : Table σ} {r : Substitution} {e : Error}
      (last : Substitutes observe t r after (.error e)) : Draws observe t [r] after (.error e)

/-- How a resolution ends, by what the observer answered last. -/
inductive Ending : Except Error Unit → Except Error Text → Prop
  | returned (text : Text) : Ending (.ok ()) (.ok text)
  | unfinished (pass : Int) (text : Text) (draws : Option Int) :
      Ending (.ok ()) (.error (.unfinished pass text draws))
  | stopped (e : Error) : Ending (.error e) (.error e)

/-- An outcome reached from a table by substitutions alone. -/
def Performs (observe : Observer σ) (t : Table σ) (o : Outcome (Table σ) Text) : Prop :=
  ∃ rs heard, Draws observe t rs o.1 heard ∧ Ending heard o.2

variable {observe : Observer σ} {t : Table σ}

theorem Draws.append {between after : Table σ} {rs rs' : List Substitution}
    {heard : Except Error Unit} (first : Draws observe t rs between (.ok ()))
    (rest : Draws observe between rs' after heard) : Draws observe t (rs ++ rs') after heard := by
  generalize answer : Except.ok () = ok at first
  induction first with
  | done => exact rest
  | next step _ ih => exact .next step (ih rest answer)
  | stopped => cases answer

namespace Performs

theorem refl (text : Text) : Performs observe t (t, .ok text) :=
  ⟨[], .ok (), .done, .returned text⟩

theorem unfinished (pass : Int) (text : Text) (draws : Option Int) :
    Performs observe t (t, .error (.unfinished pass text draws)) :=
  ⟨[], .ok (), .done, .unfinished pass text draws⟩

theorem andThen {o : Outcome (Table σ) Text} {f : Table σ → Text → Outcome (Table σ) Text}
    (first : Performs observe t o) (rest : ∀ t text, Performs observe t (f t text)) :
    Performs observe t (o.andThen f) := by
  obtain ⟨rs, heard, draws, ending⟩ := first
  obtain ⟨between, result⟩ := o
  cases ending with
  | returned text =>
    obtain ⟨rs', heard', draws', ending'⟩ := rest between text
    exact ⟨rs ++ rs', heard', draws.append draws', ending'⟩
  | unfinished pass text limit => exact ⟨rs, .ok (), draws, .unfinished pass text limit⟩
  | stopped e => exact ⟨rs, .error e, draws, .stopped e⟩

theorem map {o : Outcome (Table σ) Text} (f : Text → Text) (first : Performs observe t o) :
    Performs observe t (o.map f) :=
  first.andThen fun _ text => .refl (f text)

end Performs

theorem substitutes_drawFrom (observe : Observer σ) (t : Table σ) (form : Form) (name : Text) :
    ∃ r after heard, r.form = form ∧ r.name = name ∧ Substitutes observe t r after heard ∧
      { t with replaced := t.replaced + 1 }.drawFrom observe form name =
        (after, heard.map fun _ => r.text) := by
  have same : Table.entries { t with replaced := t.replaced + 1 } name = t.entries name := rfl
  unfold Table.drawFrom
  rw [same]
  cases found : t.entries name with
  | nil => exact ⟨⟨form, name, none⟩, _, _, rfl, rfl, .missing found, rfl⟩
  | cons first rest =>
    have below : nextPlace t name < (t.entries name).length :=
      Source.pick_lt _ (by simp [found])
    obtain ⟨raw, there⟩ : ∃ raw, (t.entries name)[nextPlace t name]? = some raw :=
      ⟨_, List.getElem?_eq_getElem below⟩
    have place : (t.source.pick (rest.length + 1)).1 = nextPlace t name := by
      simp only [nextPlace, found, List.length_cons]
    have drawn : ((first :: rest)[nextPlace t name]?).getD first = raw := by
      rw [← found, there, Option.getD_some]
    simp only [place, drawn, Source.pick_snd]
    cases form with
    | keeping => exact ⟨⟨.keeping, name, some raw⟩, _, _, rfl, rfl, .kept there, rfl⟩
    | taking =>
      refine ⟨⟨.taking, name, some raw⟩, _, _, rfl, rfl, .taken there, ?_⟩
      exact Prod.ext (by rw [Outcome.map_fst]; rfl) (by rw [Outcome.map_snd]; rfl)

theorem replace_of_spent {limits : Limits} {pass : Pass} {form : Form}
    (spent : limits.draws ≤ t.replaced) (name : Text) :
    replace limits observe pass form name t =
      (t, .error (.unfinished pass.number pass.start (some limits.draws))) := if_pos spent

theorem replace_of_left {limits : Limits} (left : ¬ limits.draws ≤ t.replaced)
    (observe : Observer σ) (pass : Pass) (form : Form) (name : Text) :
    ∃ r after heard, r.form = form ∧ r.name = name ∧ Substitutes observe t r after heard ∧
      replace limits observe pass form name t = (after, heard.map fun _ => r.text) := by
  rw [replace, if_neg left]
  exact substitutes_drawFrom observe t form name

theorem performs_replace (limits : Limits) (pass : Pass) (form : Form) (name : Text) :
    Performs observe t (replace limits observe pass form name t) := by
  by_cases spent : limits.draws ≤ t.replaced
  · rw [replace_of_spent spent]
    exact .unfinished _ _ _
  · obtain ⟨r, after, heard, -, -, step, result⟩ := replace_of_left spent observe pass form name
    rw [result]
    cases heard with
    | ok u => exact ⟨[r], .ok (), .next step .done, .returned r.text⟩
    | error e => exact ⟨[r], .error e, .stopped step, .stopped e⟩

theorem performs_fill {draw : Text → Table σ → Outcome (Table σ) Text}
    (each : ∀ name t, Performs observe t (draw name t)) (segments : List Segment) (tail : Text) :
    Performs observe t (fill draw segments tail t) := by
  induction segments generalizing t with
  | nil => exact .refl tail
  | cons segment rest ih => exact (each segment.name t).andThen fun _ _ => ih.map _

theorem performs_sweep (limits : Limits) (pass : Pass) (form : Form) (text : Text) :
    Performs observe t (sweep limits observe pass form text t) :=
  performs_fill (fun _ _ => performs_replace limits pass form _) _ _

theorem performs_runPass (limits : Limits) (number : Nat) (text : Text) :
    Performs observe t (runPass limits observe number text t) :=
  (performs_sweep limits _ .keeping text).andThen fun _ swept =>
    performs_sweep limits _ .taking swept

theorem performs_runPasses (limits : Limits) (left number : Nat) (text : Text) :
    Performs observe t (runPasses limits observe left number text t) := by
  induction left generalizing number text t with
  | zero =>
    unfold runPasses
    split
    · exact .unfinished _ _ _
    · exact .refl text
  | succ left ih =>
    unfold runPasses
    split
    · exact (performs_runPass limits number text).andThen fun _ text => ih (number + 1) text
    · exact .refl text

/-- Every resolution is a run of substitutions from a count of none. -/
theorem performs_resolve (limits : Limits) (observe : Observer σ) (text : Text) (t : Table σ) :
    Performs observe { t with replaced := 0 } (resolve limits observe text t) :=
  performs_runPasses limits limits.passes 1 text

theorem Draws.refused {kind : Error → Prop} {after : Table σ} {rs : List Substitution}
    {heard : Except Error Unit}
    (draws : Draws observe t rs after heard)
    (known : ∀ removal host, (observe removal host).FailsOnly kind) :
    ∀ e, heard = .error e → kind e := by
  induction draws with
  | done => rintro e ⟨⟩
  | next _ _ ih => exact ih
  | @stopped t after r e last =>
    rintro _ ⟨⟩
    generalize answer : Except.error e = heard at last
    cases last with
    | missing => cases answer
    | kept => cases answer
    | taken => exact Outcome.Meets.failed (known _ _) answer.symm

theorem resolve_failsOnly {kind : Error → Prop}
    (known : ∀ removal host, (observe removal host).FailsOnly kind)
    (unfinished : ∀ pass text draws, kind (.unfinished pass text draws)) (limits : Limits)
    (text : Text) : (resolve limits observe text t).FailsOnly kind := by
  obtain ⟨rs, heard, draws, ending⟩ := performs_resolve limits observe text t
  have refused := draws.refused known
  generalize resolve limits observe text t = resolved at *
  obtain ⟨table, result⟩ := resolved
  cases ending with
  | returned => trivial
  | unfinished => exact unfinished _ _ _
  | stopped e => exact refused e rfl

end Reference

end DrawPile
