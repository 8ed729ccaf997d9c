import DrawPile.Proofs.Reference.Edits

/-! Line feeds and tokens. A keeping token holds no line feed, and a taking token only such as stand
among the blanks around its name. These are the line feeds that a resolution loses, and it loses no
others. -/
namespace DrawPile.Reference

def lineFeeds (t : Text) : Nat := t.count '\n'

/-- Where a line feed keeps two braces from being those of a token: anywhere between them if the
first is followed by a percent sign, else in the name that they would enclose. -/
def unbroken (inside : Text) : Text :=
  if inside.head? = some '%' then inside else Text.trim inside

theorem inside_iff {inside : Text} :
    (∃ form part, Inside form inside part) ↔ '\n' ∉ unbroken inside := by
  by_cases marked : inside.head? = some '%'
  · obtain ⟨name, rfl⟩ := List.head?_eq_some_iff.1 marked
    rw [unbroken, if_pos marked]
    constructor
    · rintro ⟨_, _, one_line | ⟨unmarked, -⟩⟩
      · simpa using one_line
      · exact absurd marked unmarked
    · intro one_line
      exact ⟨.keeping, name, .keeping fun member => one_line (List.mem_cons_of_mem _ member)⟩
  · rw [unbroken, if_neg marked]
    constructor
    · rintro ⟨_, _, one_line | ⟨_, around, before, behind, one_line⟩⟩
      · exact absurd rfl marked
      · rw [around, Text.trim_between before behind]
        exact fun member => one_line ((Text.trim_sublist _).subset member)
    · intro one_line
      obtain ⟨front, back, around, before, behind⟩ := Text.exists_blanks_around inside
      exact ⟨.taking, inside, .taking marked around before behind one_line⟩

/-- There are no references exactly where every opening brace is kept from the next closing one by a
line feed. -/
theorem hasReferences_eq_false_iff {text : Text} : hasReferences text = false ↔
    ∀ p u q, text = p ++ '\x7b' :: u ++ '\x7d' :: q → '\x7d' ∉ u → '\n' ∈ unbroken u := by
  constructor
  · intro finished p u q whole _
    by_contra one_line
    obtain ⟨form, part, ok⟩ := inside_iff.2 one_line
    have references := hasReferences_iff.2 ⟨form, p, u, q, part, whole, ok⟩
    rw [finished] at references
    cases references
  · intro kept_apart
    cases references : hasReferences text with
    | false => rfl
    | true =>
      obtain ⟨form, p, u, q, part, whole, ok⟩ := hasReferences_iff.1 references
      by_cases closed : '\x7d' ∈ u
      · -- The first closing brace behind the opening one ends a token already.
        obtain ⟨front, back, rfl, open_still⟩ := List.eq_append_cons_of_mem closed
        obtain ⟨part', ok'⟩ := ok.cut
        have first : text = p ++ '\x7b' :: front ++ '\x7d' :: (back ++ '\x7d' :: q) := by
          simpa using whole
        exact absurd (kept_apart _ _ _ first open_still) (inside_iff.1 ⟨form, part', ok'⟩)
      · exact absurd (kept_apart _ _ _ whole closed) (inside_iff.1 ⟨form, part, ok⟩)

/-- A token with a line feed is a taking token, and the line feed is among the blanks around the
name. -/
theorem Replacement.Proper.line_feed {x : Replacement} (proper : x.Proper)
    (broken : '\n' ∈ x.token) :
    x.made.form = .taking ∧ ∃ front back, x.inside = front ++ x.made.name ++ back ∧
      Text.Blank front ∧ Text.Blank back ∧ '\n' ∉ x.made.name := by
  obtain ⟨before, inside, form, name, drawn⟩ := x
  obtain ⟨open_still, part, ok, trimmed⟩ := proper
  simp only at open_still ok trimmed ⊢
  have inside_broken : '\n' ∈ inside := by simpa [Replacement.token] using broken
  have one_line := inside_iff.1 ⟨form, part, ok⟩
  cases ok with
  | keeping free => simp [free] at inside_broken
  | taking unmarked =>
    rw [unbroken, if_neg unmarked, ← trimmed] at one_line
    obtain ⟨front, back, around, before, behind⟩ := Text.exists_blanks_around inside
    exact ⟨rfl, front, back, trimmed ▸ around, before, behind, one_line⟩

/-- What becomes of line feeds. A token that a resolution replaces holds a line feed only if it is a
taking token, and then among the blanks around its name. Those go with the tokens and all others
stay; besides them there are those of the texts drawn. There are no references exactly where each
opening brace is kept from the next closing one by a line feed that is not among such blanks. -/
theorem line_feeds_kept_outside_blanks {σ : Type} (text : Text) :
    (∀ (limits : Limits) (observe : Observer σ) (t : Table σ),
      (∃ xs reached, Replaces limits observe text t xs reached) ∧
      ∀ xs reached, Replaces limits observe text t xs reached →
        (∀ x ∈ xs, '\n' ∈ x.token → x.made.form = .taking ∧
          ∃ front back, x.inside = front ++ x.made.name ++ back ∧ Text.Blank front ∧
            Text.Blank back ∧ '\n' ∉ x.made.name) ∧
        lineFeeds reached + lineFeeds (xs.flatMap Replacement.token) =
          lineFeeds text + lineFeeds (xs.flatMap fun x => x.made.text)) ∧
    (hasReferences text = false ↔
      ∀ p u q, text = p ++ '\x7b' :: u ++ '\x7d' :: q → '\x7d' ∉ u →
        '\n' ∈ if u.head? = some '%' then u else Text.trim u) := by
  refine ⟨fun limits observe t => ⟨exists_replaces limits observe text t, ?_⟩,
    hasReferences_eq_false_iff⟩
  intro xs reached replaces
  refine ⟨fun x member broken => ?_, replaces.edits.balance '\n'⟩
  exact (replaces.edits.proper x member).line_feed broken

def wrapped : Text := "\x7b \ngem\n\x7d:\n\x7b%ring\x7d".toList

def unwrapped : Text := "ruby:\n".toList ++ invalidReference "ring".toList

theorem line_feeds_kept_outside_blanks_of_wrapped :
    (resolve ⟨2, 5⟩ .idle wrapped jeweller).2 = .ok unwrapped ∧
    ∃ xs, Replaces ⟨2, 5⟩ .idle wrapped jeweller xs unwrapped ∧
      2 ≤ lineFeeds (xs.flatMap Replacement.token) ∧
      ∃ x ∈ xs, '\n' ∈ x.token ∧ x.made.form = .taking ∧ '\n' ∉ x.made.name := by
  have returned : (resolve ⟨2, 5⟩ .idle wrapped jeweller).2 = .ok unwrapped := by decide +kernel
  obtain ⟨⟨xs, reached, replaces⟩, known⟩ :=
    (line_feeds_kept_outside_blanks wrapped).1 ⟨2, 5⟩ .idle jeweller
  obtain rfl := replaces.settled _ returned
  obtain ⟨tokens, balance⟩ := known xs _ replaces
  have kept : lineFeeds unwrapped = 1 := by decide
  have given : lineFeeds wrapped = 3 := by decide
  have lost : 2 ≤ lineFeeds (xs.flatMap Replacement.token) := by omega
  obtain ⟨x, member, broken⟩ : ∃ x ∈ xs, '\n' ∈ x.token := by
    have there : '\n' ∈ xs.flatMap Replacement.token :=
      List.count_pos_iff.1 (Nat.lt_of_lt_of_le Nat.zero_lt_two lost)
    exact List.mem_flatMap.1 there
  obtain ⟨form, -, -, -, -, -, name⟩ := tokens x member broken
  exact ⟨returned, xs, replaces, lost, x, member, broken, form, name⟩

/-- The one opening brace is followed by a line feed before the closing one, and still the two are a
token; the line feed does not outlast it. -/
theorem line_feed_in_token :
    hasReferences "\x7b\na\x7d".toList = true ∧
    (∀ p u q, "\x7b\na\x7d".toList = p ++ '\x7b' :: u ++ '\x7d' :: q → '\n' ∈ u) ∧
    (resolve ⟨1, 1⟩ .idle "\x7b\na\x7d".toList jeweller).2 = .ok (invalidReference "a".toList) ∧
    lineFeeds (invalidReference "a".toList) = 0 := by
  refine ⟨by decide +kernel, ?_, by decide +kernel, by decide⟩
  intro p u q whole
  have spelled : ['\x7b', '\n', 'a', '\x7d'] = p ++ '\x7b' :: u ++ '\x7d' :: q := whole
  cases p with
  | nil =>
    cases u with
    | nil => simp at spelled
    | cons c u =>
      obtain ⟨rfl, -⟩ := List.cons.inj (List.cons.inj spelled).2
      exact List.mem_cons_self
  | cons c p =>
    -- There is no second opening brace.
    have again : '\x7b' ∈ ['\n', 'a', '\x7d'] := by
      rw [(List.cons.inj spelled).2]
      simp
    simp at again

end DrawPile.Reference
