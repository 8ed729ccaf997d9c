import DrawPile.Text.Basic
import Mathlib.Data.List.Infix
import Mathlib.Data.List.TakeWhile

/-! Texts in the midst of others: what trimming leaves of a text between characters that are trimmed
off, and where a text occurs in another. -/
namespace DrawPile.Text

theorem dropWhile_append_exact {p : Char → Bool} {front t : Text} (passed : ∀ c ∈ front, p c = true)
    (stops : ∀ c ∈ t.head?, p c = false) : (front ++ t).dropWhile p = t := by
  rw [List.dropWhile_append_of_pos passed]
  cases t with
  | nil => rfl
  | cons c t => exact List.dropWhile_cons_of_neg (by simp [stops c rfl])

theorem trimOf_between {p : Char → Bool} {front core back : Text} (before : ∀ c ∈ front, p c = true)
    (behind : ∀ c ∈ back, p c = true) (kept : ∀ c ∈ core, p c = false) :
    trimOf p (front ++ core ++ back) = core := by
  rw [trimOf, List.append_assoc, List.dropWhile_append_of_pos before]
  cases core with
  | nil => rw [List.nil_append, List.dropWhile_eq_nil_iff.2 behind]; rfl
  | cons c core =>
    have first : p c = false := kept c List.mem_cons_self
    have stays : (c :: core ++ back).dropWhile p = c :: core ++ back :=
      List.dropWhile_cons_of_neg (by simp [first])
    rw [stays, List.reverse_append, dropWhile_append_exact, List.reverse_reverse]
    · exact fun d member => behind d (List.mem_reverse.1 member)
    · intro d last
      rw [List.head?_reverse] at last
      exact kept d (List.mem_of_getLast? last)

theorem hasPart_iff {part t : Text} : hasPart part t = true ↔ part <:+: t := by
  induction t with
  | nil => simp [hasPart]
  | cons c t ih =>
    rw [hasPart, Bool.or_eq_true, List.isPrefixOf_iff_prefix, ih, List.infix_cons_iff]

end DrawPile.Text
