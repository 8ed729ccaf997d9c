import DrawPile.Proofs.Entry
import DrawPile.Weight

/-! Reading an entry and storing it again. The text is the same unless it spells a weight of one,
which is left out; where the content that is left cannot be taken for an entry with a weight, it is
read as the same content, weighs the same and is stored the same from then on. -/
namespace DrawPile
namespace Weight

theorem evaluate_nil (s : Source) : evaluate [] s = (s, .ok (.whole 1)) := rfl

theorem evaluate_one (s : Source) : evaluate ['1'] s = (s, .ok (.whole 1)) := by
  have numeral : literal? (Text.trim ['1']) = some (.whole 1) := by decide +kernel
  rw [evaluate, numeral]

theorem ofEntry_of_implicit {e : Entry} (implicit : Entry.isImplicit e.weight = true) (s : Source) :
    ofEntry e s = (s, .ok least) := by
  unfold ofEntry
  rcases Entry.isImplicit_iff.1 implicit with missing | empty | one
  · simp only [missing]
  · simp only [empty, evaluate_nil]
    rfl
  · simp only [one, evaluate_one]
    rfl

end Weight

namespace Entry

theorem toRaw_of_implicit {e : Entry} (implicit : isImplicit e.weight = true) :
    e.toRaw = e.content :=
  encode_of_implicit implicit e.content

theorem StandsFor.toRaw_of_counting {raw : Text} {e : Entry} (stands : StandsFor raw e)
    (filled : e.weight ≠ some []) (counts : e.weight ≠ some ['1']) : e.toRaw = raw := by
  cases stands with
  | plain => rfl
  | @weighted before content whole _ =>
    have explicit : ¬ isImplicit (some before) = true := by simp [isImplicit_iff, filled, counts]
    rw [toRaw, encode_of_explicit explicit, whole]

/-- An entry that was read is stored as it was, or as its content alone. -/
theorem toRaw_decode_cases (raw : Text) :
    (decode raw).toRaw = raw ∨
      isImplicit (decode raw).weight = true ∧ (decode raw).toRaw = (decode raw).content := by
  by_cases implicit : isImplicit (decode raw).weight = true
  · exact .inr ⟨implicit, toRaw_of_implicit implicit⟩
  · have counts := mt isImplicit_iff.2 implicit
    simp only [not_or] at counts
    exact .inl ((decode_stands raw).toRaw_of_counting counts.2.1 counts.2.2)

/-- Only an entry whose weight is spelled as nothing or as one is stored otherwise than it was, as
its content alone; it weighs one, without a roll. Where the content does not open with a marker, the
entry stored is read with the same content and the same weight, and storing it again changes
nothing. -/
theorem reencoding_keeps_meaning (raw : Text) :
    ((decode raw).weight ≠ some [] → (decode raw).weight ≠ some ['1'] →
      (decode raw).toRaw = raw) ∧
    ((decode raw).weight = some [] ∨ (decode raw).weight = some ['1'] →
      (decode raw).toRaw = (decode raw).content ∧
        ∀ s, Weight.ofEntry (decode raw) s = (s, .ok Weight.least)) ∧
    (¬ marker <+: (decode raw).content →
      (decode (decode raw).toRaw).content = (decode raw).content ∧
        (∀ s, Weight.ofEntry (decode (decode raw).toRaw) s = Weight.ofEntry (decode raw) s) ∧
        (decode (decode raw).toRaw).toRaw = (decode raw).toRaw) := by
  refine ⟨(decode_stands raw).toRaw_of_counting, ?_, ?_⟩
  · intro spelled
    have implicit := isImplicit_iff.2 (.inr spelled)
    exact ⟨toRaw_of_implicit implicit, Weight.ofEntry_of_implicit implicit⟩
  · intro unmarked
    rcases toRaw_decode_cases raw with same | ⟨implicit, left_out⟩
    · rw [same]
      exact ⟨rfl, fun _ => rfl, same⟩
    · have plain : decode (decode raw).content = ⟨none, (decode raw).content⟩ :=
        decode_of_unmarked unmarked
      rw [left_out, plain]
      refine ⟨rfl, fun s => ?_, rfl⟩
      rw [Weight.ofEntry_of_implicit implicit]
      exact Weight.ofEntry_of_implicit rfl s

theorem reencoding_keeps_meaning_of_one :
    (decode "::1:::a::".toList).toRaw = ":a::".toList ∧
      (∀ s, Weight.ofEntry (decode ":a::".toList) s = (s, .ok Weight.least)) ∧
      (decode "::1::::::b".toList).toRaw = "::::b".toList := by
  have spelled : (decode "::1:::a::".toList).weight = some ['1'] := by decide
  have unmarked : ¬ marker <+: (decode "::1:::a::".toList).content := by decide
  obtain ⟨-, left_out, kept⟩ := reencoding_keeps_meaning "::1:::a::".toList
  obtain ⟨stored, weighs⟩ := left_out (.inr spelled)
  obtain ⟨-, weighs_same, -⟩ := kept unmarked
  have content : (decode "::1:::a::".toList).content = ":a::".toList := by decide
  rw [content] at stored
  refine ⟨stored, fun s => ?_, ?_⟩
  · rw [← weighs s, ← weighs_same s, stored]
  · exact ((reencoding_keeps_meaning "::1::::::b".toList).2.1 (.inr (by decide))).1.trans (by decide)

end Entry

end DrawPile
