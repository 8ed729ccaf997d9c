import DrawPile.Proofs.Reference.Acyclic
import DrawPile.Proofs.Reference.LineFeed

/-! Diagnostics in a text. What stands in the place of a reference without an entry repeats its name,
and is scanned again with the rest of the text. It has no closing brace, but the opening braces of
the name are in it, and only where there are none do the tokens of the text leave it in one piece. -/
namespace DrawPile.Reference
variable {σ : Type} {text : Text} {xs : List Replacement}

/-- No brace of a piece of text is one of a token, whatever stands around the piece: a token is
before it, or behind it, or holds the whole of it between two braces from elsewhere. -/
def Inert (piece : Text) : Prop :=
  ∀ u v before inside after form part,
    u ++ piece ++ v = before ++ '\x7b' :: inside ++ '\x7d' :: after → Inside form inside part →
    (∃ w, u = before ++ '\x7b' :: inside ++ '\x7d' :: w) ∨
    (∃ w, v = w ++ '\x7b' :: inside ++ '\x7d' :: after) ∨
    ∃ x y, u = before ++ '\x7b' :: x ∧ inside = x ++ piece ++ y ∧ v = y ++ '\x7d' :: after

theorem Bare.apart {piece u v before inside after : Text} (bare : Bare piece)
    (whole : u ++ piece ++ v = before ++ '\x7b' :: inside ++ '\x7d' :: after) :
    (∃ w, u = before ++ '\x7b' :: inside ++ '\x7d' :: w) ∨
    (∃ w, v = w ++ '\x7b' :: inside ++ '\x7d' :: after) ∨
    ∃ x y, u = before ++ '\x7b' :: x ∧ inside = x ++ piece ++ y ∧ v = y ++ '\x7d' :: after := by
  have opening : u ++ piece ++ v = before ++ '\x7b' :: (inside ++ '\x7d' :: after) := by
    simpa using whole
  rcases Text.beside_of_not_mem bare.no_opening opening with ⟨w, front, closing⟩ | ⟨w, -, behind⟩
  · rcases Text.beside_of_not_mem bare.no_closing closing.symm with ⟨w', rfl, -⟩ | ⟨y, around, back⟩
    · exact .inl ⟨w', by simpa using front⟩
    · exact .inr (.inr ⟨w, y, front, around, back⟩)
  · exact .inr (.inl ⟨w, by simpa using behind⟩)

/-- A piece without a line feed and without a closing brace is inert where it has no opening brace
either: with one, it needs but a closing brace behind it to be a token. -/
theorem inert_iff {piece : Text} (one_line : '\n' ∉ piece) (unclosed : '\x7d' ∉ piece) :
    Inert piece ↔ '\x7b' ∉ piece := by
  constructor
  · intro inert opened
    obtain ⟨a, b, rfl, -⟩ := List.eq_append_cons_of_mem opened
    have free : '\n' ∉ unbroken b := by
      have line : '\n' ∉ b := fun member => one_line (by simp [member])
      unfold unbroken
      split
      · exact line
      · exact fun member => line ((Text.trim_sublist b).subset member)
    obtain ⟨form, part, ok⟩ := inside_iff.2 free
    have whole : [] ++ (a ++ '\x7b' :: b) ++ ['\x7d'] = a ++ '\x7b' :: b ++ '\x7d' :: [] := by simp
    rcases inert _ _ _ _ _ _ _ whole ok with ⟨w, nothing⟩ | ⟨w, behind⟩ | ⟨x, y, nothing, -⟩
    · simp at nothing
    · have there : '\x7b' ∈ ['\x7d'] := by
        rw [behind]
        simp
      simp at there
    · simp at nothing
  · intro unopened u v before inside after form part whole _
    exact (Bare.of_not_mem unopened unclosed).apart whole

theorem mem_invalidReference {name : Text} {c : Char}
    (before : c ∉ "[invalid reference: collection \"".toList)
    (behind : c ∉ "\" missing or empty]".toList) : c ∈ invalidReference name ↔ c ∈ name := by
  constructor
  · intro member
    rcases List.mem_append.1 member with front | last
    · rcases List.mem_append.1 front with first | known
      · exact absurd first before
      · exact known
    · exact absurd last behind
  · intro known
    exact List.mem_append_left _ (List.mem_append_right _ known)

/-- A visible character and what is behind it, up to the end of a token, can be anything on one line
that does not begin with a percent sign. -/
theorem Inside.behind_visible {f : Form} {u v inside part : Text} {c d : Char}
    (ok : Inside f (u ++ c :: v) part) (visible : Text.isBlank c = false) (unmarked : c ≠ '%')
    (unmarked' : d ≠ '%') (one_line : '\n' ∉ d :: inside) :
    ∃ part, Inside f (u ++ d :: inside) part := by
  generalize both : u ++ c :: v = whole at ok
  cases ok with
  | keeping free =>
    cases u with
    | nil => exact absurd (List.cons.inj both).1 unmarked
    | cons e u =>
      obtain ⟨rfl, same⟩ := List.cons.inj both
      have line : '\n' ∉ u := fun member => free (same ▸ List.mem_append_left _ member)
      have line' : '\n' ∉ u ++ d :: inside := by
        rw [List.mem_append, not_or]
        exact ⟨line, one_line⟩
      exact ⟨u ++ d :: inside, .keeping line'⟩
  | @taking _ front core back head around before behind free =>
    obtain ⟨front', core', split, before', within⟩ :=
      Text.exists_core_before visible (both.trans around) before behind
    have nothing : Text.Blank [] := List.forall_mem_nil _
    have head' : (u ++ d :: inside).head? ≠ some '%' := by
      cases u with
      | nil => simpa using unmarked'
      | cons e u =>
        rw [← both] at head
        exact head
    have again : u ++ d :: inside = front' ++ (core' ++ d :: inside) ++ [] := by simp [split]
    refine ⟨_, .taking head' again before' nothing ?_⟩
    rw [List.mem_append, not_or]
    exact ⟨fun member => free (within member), one_line⟩

theorem Replacement.Proper.name_sublist {x : Replacement} (proper : x.Proper) :
    x.made.name.Sublist x.inside := by
  obtain ⟨-, part, ok, trimmed⟩ := proper
  have named := namePart?_sublist (namePart?_eq_some_iff.2 ok)
  exact trimmed ▸ (Text.trim_sublist part).trans named

theorem Replacement.Proper.no_closing {x : Replacement} (proper : x.Proper) :
    '\x7d' ∉ x.made.name :=
  fun member => proper.1 (proper.name_sublist.subset member)

theorem Replacement.Proper.no_line_feed {x : Replacement} (proper : x.Proper) :
    '\n' ∉ x.made.name := by
  intro member
  have inner : '\n' ∈ x.inside := proper.name_sublist.subset member
  obtain ⟨-, -, -, -, -, -, free⟩ := proper.line_feed (by simp [Replacement.token, inner])
  exact free member

theorem Substitution.text_of_nothing {r : Substitution} (nothing : r.drawn = none) :
    r.text = invalidReference r.name := by
  simp only [Substitution.text, nothing]

structure Replacement.Barren (x : Replacement) : Prop where
  nothing : x.made.drawn = none
  unopened : '\x7b' ∉ x.made.name
  one_line : '\n' ∉ x.inside

theorem Plain.behind {f : Form} {u v : Text} (plain : Plain f (u ++ v)) : Plain f v := by
  intro before inside after part whole
  exact plain (u ++ before) inside after part (by simp [whole])

/-- Where a diagnostic takes the place of a token that is on one line, no token comes about. Such a
token would open before the diagnostic, and so it would have been there before. -/
theorem plain_of_barren {f : Form} {written after : Text} {x : Replacement} (barren : x.Barren)
    (proper : x.Proper) (whole : text = x.before ++ x.token ++ after)
    (no_earlier : ∀ before inside behind part, text = before ++ '\x7b' :: inside ++ '\x7d' :: behind →
      Inside f inside part → x.before.length ≤ before.length) (plain : Plain f written) :
    Plain f (x.before ++ x.made.text ++ written) := by
  obtain ⟨d, starts⟩ : ∃ d, x.made.text = '[' :: d :=
    ⟨_, Substitution.text_of_nothing barren.nothing⟩
  have bare : Bare x.made.text := by
    rw [Substitution.text_of_nothing barren.nothing]
    exact bare_invalidReference (.of_not_mem barren.unopened proper.no_closing)
  intro before inside behind part whole' ok
  -- No token of the old text opens before the one replaced.
  have never {w inside' behind' part' : Text} (front : x.before = before ++ '\x7b' :: w)
      (there : text = before ++ '\x7b' :: inside' ++ '\x7d' :: behind') :
      ¬ Inside f inside' part' := by
    intro ok'
    have earlier := no_earlier _ _ _ _ there ok'
    have longer : x.before.length = before.length + (w.length + 1) := by simp [front]
    omega
  rcases bare.apart whole' with ⟨w, front⟩ | ⟨w, later⟩ | ⟨y, z, front, around, -⟩
  · have opens : x.before = before ++ '\x7b' :: (inside ++ '\x7d' :: w) := by simpa using front
    have there : text = before ++ '\x7b' :: inside ++ '\x7d' :: (w ++ x.token ++ after) := by
      simp [whole, opens]
    exact never opens there ok
  · exact plain _ _ _ _ later ok
  · rw [around, starts, List.append_assoc, List.cons_append] at ok
    have line : '\n' ∉ '\x7b' :: x.inside := by simpa using barren.one_line
    obtain ⟨part', ok'⟩ := ok.behind_visible (by decide) (by decide) (by decide) line
    have there : text = before ++ '\x7b' :: (y ++ '\x7b' :: x.inside) ++ '\x7d' :: after := by
      simp [whole, front, Replacement.token]
    exact never front there ok'

/-- Diagnostics on one line bring no token of the form, and of the other form none that was not
there before. -/
theorem Cuts.plain {form f : Form} {rest : Text} (cuts : Cuts form text xs rest)
    (barren : ∀ x ∈ xs, x.Barren) (known : f = form ∨ Plain f text) (plain : Plain f rest) :
    Plain f (rewritten xs rest) := by
  induction cuts with
  | none => exact plain
  | @next text after rest x xs first own whole _ ih =>
    obtain ⟨here, later⟩ := List.forall_mem_cons.1 barren
    apply plain_of_barren here (first.proper own whole) whole
    · rcases known with rfl | none_there
      · exact first.leftmost
      · intro before inside behind part there ok
        exact absurd ok (none_there _ _ _ _ there)
    · apply ih later _ plain
      exact known.imp_right fun none_there => Plain.behind (whole ▸ none_there)

theorem Cuts.rest_behind {form : Form} {rest : Text} (cuts : Cuts form text xs rest) :
    ∃ u, text = u ++ rest := by
  induction cuts with
  | none => exact ⟨[], rfl⟩
  | @next text after rest x xs _ _ whole _ ih =>
    obtain ⟨u, rfl⟩ := ih
    exact ⟨x.before ++ x.token ++ u, by simp [whole]⟩

/-- A sweep from end to end: all tokens of the form, and the text with what takes their places. -/
def Rewrites (form : Form) (text : Text) (xs : List Replacement) (written : Text) : Prop :=
  ∃ rest, Cuts form text xs rest ∧ Plain form rest ∧ written = rewritten xs rest

theorem Rewrites.edits {form : Form} {written : Text} (whole : Rewrites form text xs written) :
    Edits text xs written := by
  obtain ⟨rest, cuts, -, rfl⟩ := whole
  exact cuts.edits

theorem no_references_of_barren {swept expanded : Text} {keeping taking : List Replacement}
    (first : Rewrites .keeping text keeping swept) (second : Rewrites .taking swept taking expanded)
    (barren : ∀ x ∈ keeping ++ taking, x.Barren) : hasReferences expanded = false := by
  obtain ⟨barren_keeping, barren_taking⟩ := List.forall_mem_append.1 barren
  obtain ⟨rest, cuts, plain, rfl⟩ := first
  obtain ⟨rest', cuts', plain', rfl⟩ := second
  have no_keeping : Plain .keeping (rewritten keeping rest) :=
    cuts.plain barren_keeping (.inl rfl) plain
  have no_keeping_rest : Plain .keeping rest' := by
    obtain ⟨u, whole⟩ := cuts'.rest_behind
    exact Plain.behind (whole ▸ no_keeping)
  have none_kept := split?_eq_none_iff.2 (cuts'.plain barren_taking (.inr no_keeping) no_keeping_rest)
  have none_taken := split?_eq_none_iff.2 (cuts'.plain barren_taking (.inl rfl) plain')
  simp [hasReferences, none_kept, none_taken]

/-- Where no token has an entry to draw, the sweep is made whatever the observer does. -/
theorem Cuts.sweeps {form : Form} {rest : Text} (cuts : Cuts form text xs rest)
    (plain : Plain form rest) (observe : Observer σ) (t : Table σ)
    (missing : ∀ x ∈ xs, x.made.drawn = Option.none ∧ t.entries x.made.name = []) :
    ∃ after, after.decks = t.decks ∧
      Sweeps observe form text t (xs.map Replacement.made) after (rewritten xs rest) .finished := by
  induction cuts generalizing t with
  | none => exact ⟨t, rfl, .finished plain⟩
  | @next text behind rest x xs first own _ _ ih =>
    obtain ⟨⟨nothing, empty⟩, others⟩ := List.forall_mem_cons.1 missing
    have made : x.made = ⟨x.made.form, x.made.name, Option.none⟩ := by rw [← nothing]
    have step := @Substitutes.missing σ observe t x.made.form x.made.name empty
    rw [← made] at step
    obtain ⟨after, decks, further⟩ := ih plain
      { t with replaced := t.replaced + 1, warnings := t.warnings ++ [.missingDeck x.made.name] }
      others
    exact ⟨after, decks, .next first own rfl step further⟩

theorem resolve_of_finished_pass {limits : Limits} {observe : Observer σ} {written : Text}
    {t left : Table σ} {rs : List Substitution}
    (course : Expands observe text { t with replaced := 0 } rs left written .finished)
    (finished : hasReferences written = false) (some_pass : 1 ≤ limits.passes)
    (enough : rs.length ≤ limits.draws) :
    resolve limits observe text t = (left, .ok written) := by
  have room : Table.replaced { t with replaced := 0 } + rs.length ≤ limits.draws := by
    simpa using enough
  cases references : hasReferences text with
  | false =>
    have idle := runPass_of_course course room 1
    rw [runPass_of_no_references references] at idle
    rw [resolve, runPasses_of_no_references references, idle]
  | true =>
    have run := Passes.next references course .none
    rw [List.append_nil] at run
    exact runPasses_of_passes run finished some_pass room 1

theorem Substitutes.drawn_mem {observe : Observer σ} {t left : Table σ} {heard : Except Error Unit}
    {r : Substitution} (step : Substitutes observe t r left heard) :
    ∀ raw, r.drawn = some raw → raw ∈ t.entries r.name := by
  intro raw drawn
  cases step with
  | missing => cases drawn
  | kept there | taken there =>
    cases drawn
    exact List.mem_of_getElem? there

theorem Draws.drawn_mem {observe : Observer σ} {t left : Table σ} {rs : List Substitution}
    {heard : Except Error Unit} (run : Draws observe t rs left heard) :
    ∀ r ∈ rs, ∀ raw, r.drawn = some raw → raw ∈ t.entries r.name := by
  induction run with
  | done => exact List.forall_mem_nil _
  | stopped last => exact List.forall_mem_singleton.2 last.drawn_mem
  | next first _ ih =>
    refine List.forall_mem_cons.2 ⟨first.drawn_mem, fun r member raw drawn => ?_⟩
    exact (first.accounts.survivors r.name).subset (ih r member raw drawn)

def Supplied (kind : Form → Text → Prop) (xs : List Replacement) : Prop :=
  ∀ x ∈ xs, ∀ raw, x.made.drawn = some raw → Clean kind (Entry.contentOf raw)

theorem Cuts.clean {form : Form} {rest : Text} {kind : Form → Text → Prop}
    (cuts : Cuts form text xs rest) (clean : Clean kind text) (supplied : Supplied kind xs) :
    Clean kind (rewritten xs rest) ∧
      ∀ x ∈ xs, kind x.made.form x.made.name ∧ Bare x.made.name := by
  induction cuts with
  | none => exact ⟨clean, List.forall_mem_nil _⟩
  | @next text after rest x xs first own _ _ ih =>
    obtain ⟨here, later⟩ := List.forall_mem_cons.1 supplied
    obtain ⟨front, bare, named, behind⟩ := clean.of_some (split?_eq_some_iff.2 first)
    obtain ⟨clean_rest, known⟩ := ih behind later
    have clean_made : Clean kind x.made.text := by
      unfold Substitution.text
      split
      · next raw drawn => exact here raw drawn
      · exact clean_invalidReference bare
    have clean_front : Clean kind x.before := front.mono fun _ _ kept => kept.2
    subst own
    exact ⟨(clean_front.append clean_made).append clean_rest,
      List.forall_mem_cons.2 ⟨⟨named, bare⟩, known⟩⟩

/-- Of a clean text and clean contents only such tokens are replaced as were written in them. -/
theorem Edits.clean {reached : Text} {kind : Form → Text → Prop} (edits : Edits text xs reached)
    (clean : Clean kind text) (supplied : Supplied kind xs) :
    ∀ x ∈ xs, kind x.made.form x.made.name ∧ Bare x.made.name := by
  induction edits with
  | none => exact List.forall_mem_nil _
  | sweep cuts _ ih =>
    obtain ⟨first, further⟩ := List.forall_mem_append.1 supplied
    obtain ⟨clean_written, known⟩ := cuts.clean clean first
    exact List.forall_mem_append.2 ⟨known, ih clean_written further⟩

theorem Replaces.supplied {limits : Limits} {observe : Observer σ} {reached : Text} {t : Table σ}
    {kind : Form → Text → Prop} (replaces : Replaces limits observe text t xs reached)
    (contents : ∀ name, ∀ raw ∈ t.entries name, Clean kind (Entry.contentOf raw)) :
    Supplied kind xs := by
  obtain ⟨heard, run⟩ := replaces.draws
  intro x member raw drawn
  exact contents _ raw (run.drawn_mem _ (List.mem_map_of_mem member) raw drawn)

/-- In the place of a token stands a diagnostic without a closing brace. The opening braces of the
name are in it, and it is inert where the name has none. -/
theorem Replacement.Proper.diagnostic {x : Replacement} (proper : x.Proper)
    (nothing : x.made.drawn = none) :
    '\x7d' ∉ x.made.text ∧ ('\x7b' ∈ x.made.text ↔ '\x7b' ∈ x.made.name) ∧
      (Inert x.made.text ↔ '\x7b' ∉ x.made.name) := by
  rw [Substitution.text_of_nothing nothing]
  have closing : '\x7d' ∉ invalidReference x.made.name := fun member =>
    proper.no_closing ((mem_invalidReference (by decide) (by decide)).1 member)
  have one_line : '\n' ∉ invalidReference x.made.name := fun member =>
    proper.no_line_feed ((mem_invalidReference (by decide) (by decide)).1 member)
  have opening : '\x7b' ∈ invalidReference x.made.name ↔ '\x7b' ∈ x.made.name :=
    mem_invalidReference (by decide) (by decide)
  exact ⟨closing, opening, (inert_iff one_line closing).trans (not_congr opening)⟩

theorem exists_rewrites (form : Form) (text : Text) :
    ∃ xs written, Rewrites form text xs written ∧ ∀ x ∈ xs, x.made.drawn = none := by
  induction text using segments.induct form with
  | case1 text missing =>
    exact ⟨[], text, ⟨text, .none, split?_eq_none_iff.1 missing, rfl⟩, List.forall_mem_nil _⟩
  | case2 text s found _ _ _ ih =>
    obtain ⟨xs, _, ⟨rest, cuts, plain, rfl⟩, nothing⟩ := ih
    obtain ⟨inside, cut⟩ := @IsFirst.cut _ _ _ ⟨form, s.name, none⟩ (isFirst_of_split? found) rfl rfl
    exact ⟨_, _, ⟨rest, cut xs rest cuts, plain, rfl⟩, List.forall_mem_cons.2 ⟨rfl, nothing⟩⟩

/-- Where no token of a text has an entry to draw, the first pass writes diagnostics for all. -/
theorem Rewrites.expands {swept expanded : Text} {keeping taking : List Replacement}
    (first : Rewrites .keeping text keeping swept) (second : Rewrites .taking swept taking expanded)
    (observe : Observer σ) (t : Table σ)
    (missing : ∀ x ∈ keeping ++ taking, x.made.drawn = none ∧ t.entries x.made.name = []) :
    ∃ after, after.decks = t.decks ∧ Expands observe text t
      ((keeping ++ taking).map Replacement.made) after expanded .finished := by
  obtain ⟨missing_keeping, missing_taking⟩ := List.forall_mem_append.1 missing
  obtain ⟨rest, cuts, plain, rfl⟩ := first
  obtain ⟨rest', cuts', plain', rfl⟩ := second
  obtain ⟨between, decks, sweep⟩ := cuts.sweeps plain observe t missing_keeping
  have still : ∀ x ∈ taking, x.made.drawn = none ∧ between.entries x.made.name = [] := by
    intro x member
    simpa only [Table.entries, decks] using missing_taking x member
  obtain ⟨after, decks', sweep'⟩ := cuts'.sweeps plain' observe between still
  rw [List.map_append]
  exact ⟨after, decks'.trans decks, .swept sweep sweep'⟩

/-- When diagnostics are inert. A diagnostic has no closing brace, but it has the opening ones of the
name that it repeats, and is inert exactly where there are none. Where the text and the contents of
the decks are clean, no diagnostic has a brace, and every token that is replaced is one that was
written in them. Of a text whose tokens all miss, the first pass makes diagnostics only; it is the
last where the tokens are each on one line and name no brace. -/
theorem diagnostic_inert_iff {σ : Type} (limits : Limits) (observe : Observer σ) (text : Text)
    (t : Table σ) :
    ((∃ xs reached, Replaces limits observe text t xs reached) ∧
      ∀ xs reached, Replaces limits observe text t xs reached →
        (∀ x ∈ xs, x.made.drawn = none → '\x7d' ∉ x.made.text ∧
          ('\x7b' ∈ x.made.text ↔ '\x7b' ∈ x.made.name) ∧
          (Inert x.made.text ↔ '\x7b' ∉ x.made.name)) ∧
        ∀ kind : Form → Text → Prop, Clean kind text →
          (∀ name, ∀ raw ∈ t.entries name, Clean kind (Entry.contentOf raw)) →
          ∀ x ∈ xs, kind x.made.form x.made.name ∧ Bare x.made.name ∧
            (x.made.drawn = none → Inert x.made.text)) ∧
    (∃ keeping swept taking expanded, Rewrites .keeping text keeping swept ∧
      Rewrites .taking swept taking expanded ∧ ∀ x ∈ keeping ++ taking, x.made.drawn = none) ∧
    ∀ keeping swept taking expanded, Rewrites .keeping text keeping swept →
      Rewrites .taking swept taking expanded →
      (∀ x ∈ keeping ++ taking, x.made.drawn = none ∧ t.entries x.made.name = []) →
      (keeping ++ taking).length ≤ limits.draws →
      ∃ after, after.decks = t.decks ∧
        runPass limits observe 1 text { t with replaced := 0 } = (after, .ok expanded) ∧
        (1 ≤ limits.passes → (∀ x ∈ keeping ++ taking, x.Barren) →
          resolve limits observe text t = (after, .ok expanded)) := by
  refine ⟨⟨exists_replaces limits observe text t, ?_⟩, ?_, ?_⟩
  · intro xs reached replaces
    have diagnostics : ∀ x ∈ xs, x.made.drawn = none → _ := fun x member =>
      (replaces.edits.proper x member).diagnostic
    refine ⟨diagnostics, fun kind clean contents x member => ?_⟩
    obtain ⟨named, bare⟩ := replaces.edits.clean clean (replaces.supplied contents) x member
    refine ⟨named, bare, fun nothing => ?_⟩
    exact (diagnostics x member nothing).2.2.2 bare.no_opening
  · obtain ⟨keeping, swept, first, nothing⟩ := exists_rewrites .keeping text
    obtain ⟨taking, expanded, second, nothing'⟩ := exists_rewrites .taking swept
    exact ⟨keeping, swept, taking, expanded, first, second,
      List.forall_mem_append.2 ⟨nothing, nothing'⟩⟩
  · intro keeping swept taking expanded first second missing enough
    obtain ⟨after, decks, course⟩ := first.expands second observe { t with replaced := 0 } missing
    have room : ((keeping ++ taking).map Replacement.made).length ≤ limits.draws := by
      rwa [List.length_map]
    refine ⟨after, decks, runPass_of_course course (by simpa using room) 1, ?_⟩
    intro some_pass barren
    have finished : hasReferences expanded = false := no_references_of_barren first second barren
    exact resolve_of_finished_pass course finished some_pass room

def dry : Text := "\x7b%x\x7d: \x7by\x7d".toList

def dryFirst : Replacement := ⟨[], "%x".toList, ⟨.keeping, "x".toList, none⟩⟩

def drySecond : Replacement :=
  ⟨invalidReference "x".toList ++ ": ".toList, "y".toList, ⟨.taking, "y".toList, none⟩⟩

def halfDried : Text := invalidReference "x".toList ++ ": \x7by\x7d".toList

def dried : Text := invalidReference "x".toList ++ ": ".toList ++ invalidReference "y".toList

def NamedInDry (form : Form) (name : Text) : Prop :=
  form = .keeping ∧ name = "x".toList ∨ form = .taking ∧ name = "y".toList

theorem dry_clean : Clean NamedInDry dry := by
  have between : Bare ": ".toList := by decide
  exact @Clean.token _ .keeping "x".toList _ (by decide) (by decide) (by decide) (.inl ⟨rfl, rfl⟩)
    ((Clean.of_bare between).append (@Clean.token _ .taking "y".toList _ (by decide) (by decide)
      (by decide) (.inr ⟨rfl, rfl⟩) .nil))

theorem jeweller_bare (name : Text) : ∀ raw ∈ jeweller.entries name, Bare (Entry.contentOf raw) := by
  intro raw member
  by_cases gem : "gem".toList = name
  · subst gem
    obtain rfl := List.mem_singleton.1 member
    decide
  · have nothing : jeweller.decks.get? name = none := if_neg gem
    rw [Table.entries, nothing] at member
    cases member

theorem diagnostic_inert_iff_of_dry :
    (resolve ⟨1, 2⟩ .idle dry jeweller).2 = .ok dried ∧
    Replaces ⟨1, 2⟩ .idle dry jeweller [dryFirst, drySecond] dried ∧
    ∀ x ∈ [dryFirst, drySecond], Inert x.made.text ∧ NamedInDry x.made.form x.made.name := by
  obtain ⟨⟨-, inert⟩, -, finished⟩ := diagnostic_inert_iff ⟨1, 2⟩ .idle dry jeweller
  have first : Rewrites .keeping dry [dryFirst] halfDried :=
    ⟨": \x7by\x7d".toList, .next (split?_eq_some_iff.1 (by decide +kernel)) rfl rfl .none,
      split?_eq_none_iff.1 (by decide +kernel), rfl⟩
  have second : Rewrites .taking halfDried [drySecond] dried :=
    ⟨[], .next (split?_eq_some_iff.1 (by decide +kernel)) rfl rfl .none,
      split?_eq_none_iff.1 (by decide +kernel), rfl⟩
  have missing : ∀ x ∈ [dryFirst] ++ [drySecond],
      x.made.drawn = none ∧ jeweller.entries x.made.name = [] := by
    decide
  have barren : ∀ x ∈ [dryFirst] ++ [drySecond], x.Barren := by
    intro x member
    rcases List.mem_pair.1 member with rfl | rfl
    · exact ⟨rfl, by decide, by decide⟩
    · exact ⟨rfl, by decide, by decide⟩
  obtain ⟨after, -, pass, whole⟩ := finished _ _ _ _ first second missing (by decide)
  have result : resolve ⟨1, 2⟩ .idle dry jeweller = (after, .ok dried) := whole (by decide) barren
  obtain ⟨after', -, course⟩ := first.expands second .idle { jeweller with replaced := 0 } missing
  have same := pass.symm.trans (runPass_of_course course (by decide) 1)
  obtain rfl : after = after' := congrArg Prod.fst same
  have replaces : Replaces ⟨1, 2⟩ .idle dry jeweller [dryFirst, drySecond] dried := by
    refine ⟨first.edits.append second.edits, ⟨.ok (), ?_⟩, fun settled returned => ?_⟩
    · rw [result]
      exact course.draws
    · rw [result] at returned
      exact Except.ok.inj returned
  refine ⟨by rw [result], replaces, fun x member => ?_⟩
  obtain ⟨named, -, settled⟩ := (inert _ _ replaces).2 NamedInDry dry_clean
    (fun name raw there => .of_bare (jeweller_bare name raw there)) x member
  exact ⟨settled (missing x member).1, named⟩

def torn : Text := "\x7b%a\x7bb\x7d \x7bgem\x7d \x7bring\x7d".toList

/-- A name with an opening brace. In `torn` its diagnostic makes one token with what follows, and so
the gem is not drawn. Where a closing brace is left behind it, it takes another pass, though there
was no deck to draw from. -/
theorem diagnostic_opens_token :
    '\x7b' ∈ invalidReference "a\x7bb".toList ∧ ¬ Inert (invalidReference "a\x7bb".toList) ∧
    (resolve ⟨64, 2⟩ .idle torn jeweller).1.decks = jeweller.decks ∧
    (resolve ⟨64, 2⟩ .idle torn jeweller).1.warnings =
      [.missingDeck "a\x7bb".toList, .missingDeck "b\" missing or empty] \x7bgem".toList] ∧
    jeweller.entries "a\x7bb".toList = [] ∧
    (resolve ⟨1, 10⟩ .idle "\x7ba\x7bb\x7d\x7d".toList jeweller).2 =
      .error (.unfinished 1 (invalidReference "a\x7bb".toList ++ ['\x7d']) none) := by
  have opened : '\x7b' ∈ invalidReference "a\x7bb".toList := by decide
  refine ⟨opened, ?_, by decide +kernel, by decide +kernel, by decide, by decide +kernel⟩
  rw [inert_iff (by decide) (by decide), not_not]
  exact opened

end DrawPile.Reference
