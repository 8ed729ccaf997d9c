import DrawPile.Proofs.Reference.Acyclic
import DrawPile.Proofs.Reference.Grammar

/-! Decks that refer to each other for ever. Where all tokens keep what they draw, and each entry of
some decks names one of these decks again, a text that names one of them still does so after every
pass. Such a text is never settled: whatever the limits are, one of them is exceeded. -/
namespace DrawPile.Reference
variable {σ : Type} {text : Text} {names : Text → Prop}

def KeepsOnly (form : Form) (_ : Text) : Prop := form = .keeping

/-- A keeping token, written on one line and without a brace inside, has one of the names. -/
def Mentions (names : Text → Prop) (text : Text) : Prop :=
  ∃ before inside after, text = before ++ '\x7b' :: '%' :: inside ++ '\x7d' :: after ∧
    Bare inside ∧ '\n' ∉ inside ∧ names (Text.trim inside)

/-- Every entry keeps only, the decks with the names have entries, and each of these entries
mentions one of the names again. -/
structure Endless (names : Text → Prop) (t : Table σ) : Prop where
  clean : ∀ name, ∀ raw ∈ t.entries name, Clean KeepsOnly (Entry.contentOf raw)
  stocked : ∀ name, names name → t.entries name ≠ []
  again : ∀ name, names name → ∀ raw ∈ t.entries name, Mentions names (Entry.contentOf raw)

theorem Endless.of_decks {t after : Table σ} (endless : Endless names t)
    (same : after.decks = t.decks) :
    Endless names after := by
  have entries (name : Text) : after.entries name = t.entries name := by
    simp only [Table.entries, same]
  exact ⟨fun name => entries name ▸ endless.clean name,
    fun name => entries name ▸ endless.stocked name,
    fun name => entries name ▸ endless.again name⟩

theorem Mentions.references (mentions : Mentions names text) : hasReferences text = true := by
  obtain ⟨before, inside, after, whole, -, one_line, -⟩ := mentions
  exact hasReferences_iff.2
    ⟨.keeping, before, '%' :: inside, after, inside, whole, .keeping one_line⟩

theorem Mentions.among (mentions : Mentions names text) (front back : Text) :
    Mentions names (front ++ text ++ back) := by
  obtain ⟨before, inside, after, rfl, bare⟩ := mentions
  exact ⟨front ++ before, inside, after ++ back, by simp, bare⟩

theorem Mentions.behind (mentions : Mentions names text) (front : Text) :
    Mentions names (front ++ text) := by
  have among := mentions.among front []
  rwa [List.append_nil] at among

theorem Clean.bare {kind : Form → Text → Prop} (clean : Clean kind text)
    (no_tokens : ∀ form name, ¬ kind form name) :
    Bare text := by
  induction clean with
  | nil => exact List.forall_mem_nil _
  | letter bare _ ih => exact List.forall_mem_cons.2 ⟨bare, ih⟩
  | @token form inside _ _ _ _ named => exact absurd named (no_tokens form _)

theorem Bare.of_trim (bare : Bare (Text.trim text)) : Bare text := by
  obtain ⟨front, back, around, before, behind⟩ := Text.exists_blanks_around text
  have bare_blank {blanks : Text} (blank : Text.Blank blanks) : Bare blanks :=
    .of_not_mem (Text.not_mem_of_blank (by decide) blank)
      (Text.not_mem_of_blank (by decide) blank)
  rw [around]
  exact ((bare_blank before).append bare).append (bare_blank behind)

/-- Of the names that a text mentions the first token has one, or the rest mentions one. -/
theorem Mentions.first {s : Split} (mentions : Mentions names text) (clean : Clean KeepsOnly text)
    (found : split? .keeping text = some s) : names s.name ∨ Mentions names s.after := by
  obtain ⟨front, bare_name, -, -⟩ := clean.of_some found
  have bare_front : Bare s.before := front.bare fun _ _ kept => kept.1 kept.2
  obtain ⟨inside, part, whole, -, named, trimmed⟩ := split?_eq_some found
  cases namePart?_eq_some_iff.1 named with
  | keeping =>
    have bare_part : Bare part := .of_trim (trimmed ▸ bare_name)
    obtain ⟨before, inside', after, whole', bare', one_line, known⟩ := mentions
    have both : s.before ++ ('\x7b' :: '%' :: part ++ '\x7d' :: s.after) =
        before ++ '\x7b' :: ('%' :: inside' ++ '\x7d' :: after) := by
      simpa using whole.symm.trans whole'
    obtain ⟨between, -, rest⟩ := Text.behind_of_not_mem bare_front.no_opening both
    cases between with
    | nil =>
      have closed : part ++ '\x7d' :: s.after = inside' ++ '\x7d' :: after := by simpa using rest
      have same := (Text.eq_before_first bare_part.no_closing bare'.no_closing closed).1
      left
      rw [trimmed, same]
      exact known
    | cons c between =>
      -- The mention opens behind the brace that opens the first token, so behind that token.
      have unopened : '\x7b' ∉ '%' :: part ++ ['\x7d'] := by simpa using bare_part.no_opening
      have behind : '%' :: part ++ ['\x7d'] ++ s.after =
          between ++ '\x7b' :: ('%' :: inside' ++ '\x7d' :: after) := by
        simpa using (List.cons.inj rest).2
      obtain ⟨between', -, rest'⟩ := Text.behind_of_not_mem unopened behind
      exact .inr ⟨between', inside', after, by simpa using rest', bare', one_line, known⟩

/- A resolution ends for a limit, and the decks are what they were. -/
def Exceeds (t after : Table σ) (e : Error) : Prop :=
  after.decks = t.decks ∧ ∃ pass reached draws, e = .unfinished pass reached draws

theorem Exceeds.of_decks {t between after : Table σ} {e : Error} (exceeds : Exceeds between after e)
    (same : between.decks = t.decks) : Exceeds t after e :=
  ⟨exceeds.1.trans same, exceeds.2⟩

theorem Substitutes.endless {observe : Observer σ} {t after : Table σ} {r : Substitution}
    {heard : Except Error Unit} (step : Substitutes observe t r after heard)
    (endless : Endless names t) (keeping : r.form = .keeping) (bare : Bare r.name) :
    heard = .ok () ∧ after.decks = t.decks ∧ Clean KeepsOnly r.text ∧
      (names r.name → Mentions names r.text) := by
  cases step with
  | missing empty =>
    refine ⟨rfl, rfl, clean_invalidReference bare, fun known => ?_⟩
    exact absurd empty (endless.stocked _ known)
  | @kept name raw there =>
    have member := List.mem_of_getElem? there
    exact ⟨rfl, rfl, endless.clean name raw member, fun known => endless.again name known raw member⟩
  | taken => cases keeping

theorem sweep_endless {limits : Limits} {observe : Observer σ} {pass : Pass} {t : Table σ}
    (endless : Endless names t) (clean : Clean KeepsOnly text) :
    (sweep limits observe pass .keeping text t).Meets
      (fun after swept => after.decks = t.decks ∧ Clean KeepsOnly swept ∧
        (Mentions names text → Mentions names swept))
      (Exceeds t) := by
  induction text using segments.induct .keeping generalizing t with
  | case1 text missing =>
    rw [sweep_of_none missing]
    exact ⟨rfl, clean, id⟩
  | case2 text s found _ _ _ ih =>
    obtain ⟨front, bare, -, rest⟩ := clean.of_some found
    have clean_front : Clean KeepsOnly s.before := front.mono fun _ _ kept => kept.2
    rw [sweep_of_some found]
    apply (replace_meets limits observe pass .keeping s.name t).andThen
    · rintro between drawn ⟨r, keeping, same, rfl, step⟩
      obtain ⟨-, decks, clean_drawn, brought⟩ := step.endless endless keeping (same ▸ bare)
      apply Outcome.Meets.andThen (ih (endless.of_decks decks) rest)
      · rintro after filled ⟨decks', clean_filled, kept⟩
        refine ⟨decks'.trans decks, (clean_front.append clean_drawn).append clean_filled, ?_⟩
        intro mentions
        rcases mentions.first clean found with known | later
        · exact (brought (same ▸ known)).among s.before filled
        · exact (kept later).behind (s.before ++ r.text)
      · exact fun _ _ exceeds => exceeds.of_decks decks
    · rintro after e (⟨rfl, -, rfl⟩ | ⟨r, keeping, same, step⟩)
      · exact ⟨rfl, _, _, _, rfl⟩
      · cases (step.endless endless keeping (same ▸ bare)).1

theorem Clean.no_taking (clean : Clean KeepsOnly text) : split? .taking text = none := by
  cases found : split? .taking text with
  | none => rfl
  | some s => cases (clean.of_some found).2.2.1

theorem runPass_endless {limits : Limits} {observe : Observer σ} {t : Table σ}
    (endless : Endless names t) (clean : Clean KeepsOnly text) (number : Nat) :
    (runPass limits observe number text t).Meets
      (fun after expanded => after.decks = t.decks ∧ Clean KeepsOnly expanded ∧
        (Mentions names text → Mentions names expanded))
      (Exceeds t) := by
  apply (sweep_endless endless clean).andThen
  · intro between swept known
    rw [sweep_of_none known.2.1.no_taking]
    exact known
  · exact fun _ _ exceeds => exceeds

theorem runPasses_endless {limits : Limits} {observe : Observer σ} {t : Table σ}
    (endless : Endless names t) (clean : Clean KeepsOnly text) (mentions : Mentions names text)
    (left number : Nat) :
    (runPasses limits observe left number text t).Meets (fun _ _ => False) (Exceeds t) := by
  have references := mentions.references
  -- What is mentioned outlives every pass, so there are references when none is left.
  induction left generalizing number text t with
  | zero =>
    rw [runPasses_zero_of_references references]
    exact ⟨rfl, _, _, _, rfl⟩
  | succ left ih =>
    rw [runPasses_of_references references]
    apply (runPass_endless endless clean number).andThen
    · rintro between expanded ⟨decks, clean', kept⟩
      have mentions' := kept mentions
      apply (ih (endless.of_decks decks) clean' mentions' (number + 1) mentions'.references).imp
      · exact fun _ _ never => never
      · exact fun _ _ exceeds => exceeds.of_decks decks
    · exact fun _ _ exceeds => exceeds

/-- A text that mentions decks without an end is resolved under no limits: one of them is exceeded,
whatever is drawn, and every deck is left as it was. -/
theorem resolve_endless {σ : Type} {text : Text} {t : Table σ} {names : Text → Prop}
    (endless : Endless names t) (clean : Clean KeepsOnly text) (mentions : Mentions names text)
    (limits : Limits) (observe : Observer σ) :
    (∃ pass reached draws,
      (resolve limits observe text t).2 = .error (.unfinished pass reached draws)) ∧
    (resolve limits observe text t).1.decks = t.decks := by
  have start : Endless names { t with replaced := 0 } := endless.of_decks rfl
  have meets : (resolve limits observe text t).Meets (fun _ _ => False)
      (Exceeds { t with replaced := 0 }) :=
    runPasses_endless start clean mentions limits.passes 1
  generalize resolve limits observe text t = o at meets
  rcases o with ⟨after, e | settled⟩
  · obtain ⟨decks, pass, reached, draws, rfl⟩ := meets
    exact ⟨⟨pass, reached, draws, rfl⟩, decks⟩
  · cases meets

/- The hall leads to the stairs only, and the stairs lead back to the hall; there is no roof. -/
def maze : Table Unit where
  decks := [("hall".toList, ["up \x7b% stairs \x7d".toList,
      "::3::\x7b%stairs\x7d or \x7b%roof\x7d".toList]),
    ("stairs".toList, ["\x7b%hall\x7d".toList])]
  source := .cycle #[]
  host := ()

def Passage (name : Text) : Prop := name = "hall".toList ∨ name = "stairs".toList

theorem clean_token {inside back : Text} (bare : Bare inside) (one_line : '\n' ∉ inside)
    (rest : Clean KeepsOnly back) : Clean KeepsOnly ('\x7b' :: '%' :: inside ++ '\x7d' :: back) :=
  @Clean.token _ .keeping inside back bare one_line (fun taking => by cases taking) rfl rest

theorem leads_on (front inside back : Text) (bare_front : Bare front) (bare : Bare inside)
    (one_line : '\n' ∉ inside) (rest : Clean KeepsOnly back) (known : Passage (Text.trim inside)) :
    Clean KeepsOnly (front ++ ('\x7b' :: '%' :: inside ++ '\x7d' :: back)) ∧
      Mentions Passage (front ++ ('\x7b' :: '%' :: inside ++ '\x7d' :: back)) :=
  ⟨(Clean.of_bare bare_front).append (clean_token bare one_line rest),
    ⟨front, inside, back, by simp, bare, one_line, known⟩⟩

theorem maze_leads_on (name : Text) : ∀ raw ∈ maze.entries name,
    Clean KeepsOnly (Entry.contentOf raw) ∧ Mentions Passage (Entry.contentOf raw) := by
  intro raw member
  by_cases hall : "hall".toList = name
  · subst hall
    have roof : Clean KeepsOnly " or \x7b%roof\x7d".toList :=
      @Clean.append _ " or ".toList _ (.of_bare (by decide))
        (@clean_token "roof".toList [] (by decide) (by decide) .nil)
    rcases List.mem_pair.1 member with rfl | rfl
    · exact leads_on "up ".toList " stairs ".toList [] (by decide) (by decide) (by decide) .nil
        (.inr (by decide))
    · exact leads_on [] "stairs".toList _ (by decide) (by decide) (by decide) roof
        (.inr (by decide))
  · by_cases stairs : "stairs".toList = name
    · subst stairs
      obtain rfl := List.mem_singleton.1 member
      exact leads_on [] "hall".toList [] (by decide) (by decide) (by decide) .nil (.inl (by decide))
    · have nowhere : maze.decks.get? name = none := (if_neg hall).trans (if_neg stairs)
      rw [Table.entries, nowhere] at member
      cases member

theorem maze_endless : Endless Passage maze where
  clean name raw member := (maze_leads_on name raw member).1
  stocked := by
    rintro name (rfl | rfl)
    · decide
    · decide
  again name _ raw member := (maze_leads_on name raw member).2

theorem resolve_endless_of_maze : Endless Passage maze ∧
    Mentions Passage "\x7b%hall\x7d".toList ∧
    (∃ pass reached draws, (resolve ⟨64, 10000⟩ .idle "\x7b%hall\x7d".toList maze).2 =
      .error (.unfinished pass reached draws)) ∧
    (resolve ⟨1, 1⟩ .idle "\x7b%hall\x7d".toList maze).1.decks = maze.decks := by
  obtain ⟨clean, mentions⟩ :=
    leads_on [] "hall".toList [] (by decide) (by decide) (by decide) .nil (.inl (by decide))
  exact ⟨maze_endless, mentions, (resolve_endless maze_endless clean mentions ⟨64, 10000⟩ .idle).1,
    (resolve_endless maze_endless clean mentions ⟨1, 1⟩ .idle).2⟩

end DrawPile.Reference
