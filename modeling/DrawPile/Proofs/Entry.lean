import DrawPile.Entry

/-! Reading stored entries. What is read stands in the entry as it was stored. A weight ends at the
first marker behind it, so a weight can be read back if it has no marker in it and does not end in
a colon, which would run into the marker; colons in front of the content do no harm. -/
namespace DrawPile.Entry
variable {t : Text}

theorem splitMarker?_eq_some {before after : Text} (found : splitMarker? t = some (before, after)) :
    t = before ++ marker ++ after := by
  induction t using splitMarker?.induct generalizing before with
  | case1 | case2 => cases found
  | case3 c d t opening =>
    obtain ⟨rfl, rfl⟩ := opening
    simp only [splitMarker?, and_self, if_true] at found
    cases found
    rfl
  | case4 c d t other ih =>
    rw [splitMarker?, if_neg other] at found
    obtain ⟨⟨front, rest⟩, found, same⟩ := Option.map_eq_some_iff.1 found
    cases same
    rw [ih found]
    rfl

theorem contentOf_suffix (raw : Text) : contentOf raw <:+ raw := by
  unfold contentOf decode
  split
  · next rest =>
    cases found : splitMarker? rest with
    | none => exact List.suffix_rfl
    | some parts =>
      obtain ⟨weight, content⟩ := parts
      rw [splitMarker?_eq_some found]
      exact ⟨marker ++ weight ++ marker, by simp [marker]⟩
  · exact List.suffix_rfl

theorem marker_prefix_iff {c d : Char} : marker <+: c :: d :: t ↔ c = ':' ∧ d = ':' := by
  simp [marker, eq_comm]

theorem marker_suffix_iff : marker <:+ t ++ [':'] ↔ [':'] <:+ t := by
  have marked : marker = [':'] ++ [':'] := rfl
  rw [marked, List.suffix_append_inj_of_length_eq rfl, and_iff_left rfl]

theorem splitMarker?_eq_none_iff : splitMarker? t = none ↔ ¬ marker <:+: t := by
  induction t using splitMarker?.induct with
  | case1 => simp [splitMarker?, marker]
  | case2 c => simp [splitMarker?, marker, List.infix_cons_iff]
  | case3 c d t opening =>
    have there : marker <:+: c :: d :: t := (marker_prefix_iff.2 opening).isInfix
    simp only [splitMarker?, if_pos opening, reduceCtorEq, there, not_true_eq_false]
  | case4 c d t other ih =>
    have further : marker <:+: c :: d :: t ↔ marker <:+: d :: t := by
      rw [List.infix_cons_iff, marker_prefix_iff, or_iff_right other]
    rw [splitMarker?, if_neg other, Option.map_eq_none_iff, ih, further]

/-- A text behind which a marker is the first: it has none in it, nor does its last colon make one
with a colon behind it. -/
def Delimited (before : Text) : Prop := ¬ marker <:+: before ++ [':']

theorem delimited_iff {before : Text} :
    Delimited before ↔ ¬ marker <:+: before ∧ ¬ [':'] <:+ before := by
  rw [Delimited, List.infix_concat_iff, marker_suffix_iff, not_or, and_comm]

theorem splitMarker?_delimited {before : Text} (delimited : Delimited before) (after : Text) :
    splitMarker? (before ++ marker ++ after) = some (before, after) := by
  induction before with
  | nil => rfl
  | cons c before ih =>
    rw [Delimited, List.cons_append, List.infix_cons_iff, not_or] at delimited
    obtain ⟨d, t, next⟩ : ∃ d t, before ++ marker ++ after = d :: t :=
      List.exists_cons_of_ne_nil (by simp [marker])
    -- The colon behind the text stands for the first of the marker.
    have opens : marker <+: c :: d :: t → marker <+: c :: (before ++ [':']) := by
      intro found
      have same : c :: (before ++ [':']) <+: c :: d :: t := ⟨':' :: after, by simp [← next, marker]⟩
      exact List.prefix_of_prefix_length_le found same (by simp [marker])
    have other : ¬ (c = ':' ∧ d = ':') := fun opening =>
      delimited.1 (opens (marker_prefix_iff.2 opening))
    have rest := ih delimited.2
    rw [next] at rest
    rw [List.cons_append, List.cons_append, next, splitMarker?, if_neg other, rest]
    rfl

theorem delimited_of_splitMarker? {before after : Text}
    (found : splitMarker? t = some (before, after)) :
    Delimited before := by
  induction t using splitMarker?.induct generalizing before with
  | case1 | case2 => cases found
  | case3 c d t opening =>
    simp only [splitMarker?, if_pos opening] at found
    cases found
    simp [Delimited, marker, List.infix_cons_iff]
  | case4 c d t other ih =>
    have whole := splitMarker?_eq_some found
    rw [splitMarker?, if_neg other] at found
    obtain ⟨⟨front, rest⟩, found, same⟩ := Option.map_eq_some_iff.1 found
    cases same
    rw [Delimited, List.cons_append, List.infix_cons_iff, not_or]
    refine ⟨fun opens => ?_, ih found⟩
    have further : c :: (front ++ [':']) <+: c :: d :: t := ⟨':' :: after, by simp [whole, marker]⟩
    exact other (marker_prefix_iff.1 (opens.trans further))

theorem splitMarker?_eq_some_iff {before after : Text} :
    splitMarker? t = some (before, after) ↔ t = before ++ marker ++ after ∧ Delimited before := by
  constructor
  · intro found
    exact ⟨splitMarker?_eq_some found, delimited_of_splitMarker? found⟩
  · rintro ⟨rfl, delimited⟩
    exact splitMarker?_delimited delimited after

/-- The entry that a stored text stands for: all of it as content, where it does not open with a
marker or has no other behind that one; else what stands before and after the next marker. -/
inductive StandsFor (raw : Text) : Entry → Prop
  | plain (unmarked : ¬ marker <+: raw ∨ ¬ marker <:+: raw.drop marker.length) :
      StandsFor raw ⟨none, raw⟩
  | weighted {before content : Text} (whole : raw = marker ++ before ++ marker ++ content)
      (delimited : Delimited before) : StandsFor raw ⟨some before, content⟩

theorem decode_marker (rest : Text) :
    decode (marker ++ rest) = match splitMarker? rest with
      | some (weight, content) => ⟨some weight, content⟩
      | none => ⟨none, marker ++ rest⟩ := rfl

theorem decode_of_unmarked {raw : Text} (unmarked : ¬ marker <+: raw) :
    decode raw = ⟨none, raw⟩ := by
  unfold decode
  split
  · next rest => exact absurd (List.prefix_append marker rest) unmarked
  · rfl

theorem decode_stands (raw : Text) : StandsFor raw (decode raw) := by
  by_cases marked : marker <+: raw
  · obtain ⟨rest, rfl⟩ := marked
    rw [decode_marker]
    cases found : splitMarker? rest with
    | none => exact .plain (.inr (splitMarker?_eq_none_iff.1 found))
    | some parts =>
      obtain ⟨rfl, delimited⟩ := splitMarker?_eq_some_iff.1 found
      exact .weighted (by simp only [List.append_assoc]) delimited
  · rw [decode_of_unmarked marked]
    exact .plain (.inl marked)

theorem decode_eq_iff {raw : Text} {e : Entry} : decode raw = e ↔ StandsFor raw e := by
  refine ⟨fun same => same ▸ decode_stands raw, fun stands => ?_⟩
  cases stands with
  | plain unmarked =>
    by_cases marked : marker <+: raw
    · obtain ⟨rest, rfl⟩ := marked
      have single : ¬ marker <:+: rest := unmarked.resolve_left (not_not_intro ⟨rest, rfl⟩)
      rw [decode_marker, splitMarker?_eq_none_iff.2 single]
    · exact decode_of_unmarked marked
  | weighted whole delimited =>
    rw [whole, List.append_assoc, List.append_assoc, decode_marker, ← List.append_assoc,
      splitMarker?_delimited delimited]

theorem decode_eq_plain_iff {raw : Text} :
    decode raw = ⟨none, raw⟩ ↔ ¬ marker <+: raw ∨ ¬ marker <:+: raw.drop marker.length := by
  rw [decode_eq_iff]
  constructor
  · rintro ⟨unmarked⟩
    exact unmarked
  · exact .plain

theorem decode_weighted_iff {content w : Text} :
    decode (marker ++ w ++ marker ++ content) = ⟨some w, content⟩ ↔ Delimited w := by
  rw [decode_eq_iff]
  constructor
  · rintro (_ | ⟨_, delimited⟩)
    exact delimited
  · exact .weighted rfl

theorem isImplicit_iff {weight : Option Text} :
    isImplicit weight = true ↔ weight = none ∨ weight = some [] ∨ weight = some ['1'] := by
  cases weight <;> simp [isImplicit]

theorem encode_of_implicit {weight : Option Text} (implicit : isImplicit weight = true)
    (content : Text) :
    encode content weight = content := by
  rw [encode, if_pos implicit]

theorem encode_of_explicit {w : Text} (explicit : ¬ isImplicit (some w) = true) (content : Text) :
    encode content (some w) = marker ++ w ++ marker ++ content := by
  rw [encode, if_neg explicit, Option.getD_some]

end DrawPile.Entry
