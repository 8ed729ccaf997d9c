import DrawPile.Reference.Token
import Mathlib.Data.List.TakeWhile

/-! Where the tokens of a text stand. A token that is found ends at the first closing brace after
its opening one; text without an opening brace is passed over. -/
namespace DrawPile

theorem Text.trim_sublist (t : Text) : (Text.trim t).Sublist t := by
  have front : (t.dropWhile isBlank).Sublist t := List.dropWhile_sublist _
  have back : (Text.trim t).Sublist (t.dropWhile isBlank) := by
    have reversed : ((t.dropWhile isBlank).reverse.dropWhile isBlank).Sublist
        (t.dropWhile isBlank).reverse := List.dropWhile_sublist _
    simpa [trim, trimOf] using List.reverse_sublist.2 reversed
  exact back.trans front

/-- A character that a text does not hold stands behind the text. -/
theorem Text.behind_of_not_mem {c : Char} {u v u' v' : Text} (absent : c ∉ u)
    (whole : u ++ v = u' ++ c :: v') : ∃ between, u' = u ++ between ∧ v = between ++ c :: v' := by
  rcases List.append_eq_append_iff.1 whole with ⟨between, front, rest⟩ | ⟨between, front, rest⟩
  · exact ⟨between, front, rest⟩
  · cases between with
    | nil => exact ⟨[], by simpa using front.symm, by simpa using rest.symm⟩
    | cons d between =>
      obtain ⟨rfl, -⟩ := List.cons.inj rest
      simp [front] at absent

/-- A character that a piece of a text does not hold stands before the piece or behind it. -/
theorem Text.beside_of_not_mem {c : Char} {u piece v before after : Text} (absent : c ∉ piece)
    (whole : u ++ piece ++ v = before ++ c :: after) :
    (∃ w, u = before ++ c :: w ∧ after = w ++ piece ++ v) ∨
      ∃ w, before = u ++ piece ++ w ∧ v = w ++ c :: after := by
  rw [List.append_assoc] at whole
  rcases List.append_eq_append_iff.1 whole with ⟨m, rfl, rest⟩ | ⟨m, rfl, rest⟩
  · obtain ⟨w, rfl, behind⟩ := behind_of_not_mem absent rest
    exact .inr ⟨w, by simp, behind⟩
  · cases m with
    | nil =>
      obtain ⟨w, nothing, behind⟩ := @behind_of_not_mem c piece v [] after absent rest.symm
      obtain ⟨rfl, rfl⟩ := List.append_eq_nil_iff.1 nothing.symm
      exact .inr ⟨[], by simp, behind⟩
    | cons d w =>
      obtain ⟨rfl, behind⟩ := List.cons.inj rest
      exact .inl ⟨w, rfl, by simpa using behind⟩

/-- Where a character stands first in a text, what is before it is known. -/
theorem Text.eq_before_first {c : Char} {u v u' v' : Text} (absent : c ∉ u) (absent' : c ∉ u')
    (whole : u ++ c :: v = u' ++ c :: v') : u = u' ∧ v = v' := by
  obtain ⟨between, rfl, rest⟩ := behind_of_not_mem absent whole
  cases between with
  | nil => simpa using rest
  | cons d between =>
    obtain ⟨rfl, -⟩ := List.cons.inj rest
    simp at absent'

namespace Reference
variable {form : Form} {t : Text}

theorem namePart?_sublist {inside part : Text} (named : namePart? form inside = some part) :
    part.Sublist inside := by
  unfold namePart? at named
  split at named
  · split at named <;> cases named
    exact List.sublist_cons_self _ _
  · cases named
  · cases named
  · split at named <;> cases named
    exact .refl _

theorem namePart?_keeping_of_unmarked {inside : Text} (unmarked : inside.head? ≠ some '%') :
    namePart? .keeping inside = none := by
  unfold namePart?
  split
  · simp at unmarked
  · rfl
  · rfl
  · next wrong _ => cases wrong

theorem namePart?_taking_of_unmarked {inside : Text} (unmarked : inside.head? ≠ some '%') :
    namePart? .taking inside = if '\n' ∈ Text.trim inside then none else some inside := by
  unfold namePart?
  split
  · next wrong => cases wrong
  · next wrong _ => cases wrong
  · simp at unmarked
  · rfl

theorem splitAt_closing {inside : Text} (open_still : '\x7d' ∉ inside) (t : Text) :
    (inside ++ '\x7d' :: t).takeWhile (· != '\x7d') = inside ∧
      (inside ++ '\x7d' :: t).dropWhile (· != '\x7d') = '\x7d' :: t := by
  have before : ∀ c ∈ inside, (c != '\x7d') = true := by
    intro c member
    simpa using fun same : c = '\x7d' => open_still (same ▸ member)
  constructor
  · rw [List.takeWhile_append_of_pos before]
    simp
  · rw [List.dropWhile_append_of_pos before]
    simp

theorem token?_append {inside : Text} (open_still : '\x7d' ∉ inside) (t : Text) :
    token? form (inside ++ '\x7d' :: t) =
      (namePart? form inside).map fun part => (Text.trim part, t) := by
  obtain ⟨taken, dropped⟩ := splitAt_closing open_still t
  simp only [token?, taken, dropped]

theorem token?_eq_some {name after : Text} (found : token? form t = some (name, after)) :
    ∃ inside part, t = inside ++ '\x7d' :: after ∧ '\x7d' ∉ inside ∧
      namePart? form inside = some part ∧ name = Text.trim part := by
  unfold token? at found
  split at found
  · cases found
  · next _ c rest dropped =>
    obtain ⟨part, named, same⟩ := Option.map_eq_some_iff.1 found
    cases same
    have closing : c = '\x7d' := by
      have stops := List.head?_dropWhile_not (· != '\x7d') t
      simpa [dropped] using stops
    refine ⟨t.takeWhile (· != '\x7d'), part, ?_, ?_, named, rfl⟩
    · calc t = t.takeWhile (· != '\x7d') ++ t.dropWhile (· != '\x7d') :=
            List.takeWhile_append_dropWhile.symm
        _ = t.takeWhile (· != '\x7d') ++ '\x7d' :: after := by rw [dropped, closing]
    · intro member
      simpa using List.mem_takeWhile_imp member

theorem splitFrom_append {u : Text} (plain : '\x7b' ∉ u) (passed : Text) :
    splitFrom form passed (u ++ t) = splitFrom form (u.reverse ++ passed) t := by
  induction u generalizing passed with
  | nil => rfl
  | cons c u ih =>
    simp only [List.mem_cons, not_or] at plain
    rw [List.cons_append, splitFrom, if_neg (Ne.symm plain.1)]
    simp only [ih plain.2, List.reverse_cons, List.append_assoc, List.singleton_append]

theorem splitFrom_eq_some {passed : Text} {s : Split} (found : splitFrom form passed t = some s) :
    ∃ between inside part, s.before = passed.reverse ++ between ∧
      t = between ++ '\x7b' :: inside ++ '\x7d' :: s.after ∧ '\x7d' ∉ inside ∧
      namePart? form inside = some part ∧ s.name = Text.trim part := by
  induction t generalizing passed with
  | nil => cases found
  | cons c t ih =>
    rw [splitFrom] at found
    split at found
    · next name after token =>
      cases found
      split at token
      · next opening =>
        obtain ⟨inside, part, rfl, open_still, named, trimmed⟩ := token?_eq_some token
        exact ⟨[], inside, part, by simp, by simp [opening], open_still, named, trimmed⟩
      · cases token
    · obtain ⟨between, inside, part, before, whole, rest⟩ := ih found
      exact ⟨c :: between, inside, part, by simp [before], by rw [whole]; rfl, rest⟩

theorem split?_eq_some {s : Split} (found : split? form t = some s) :
    ∃ inside part, t = s.before ++ '\x7b' :: inside ++ '\x7d' :: s.after ∧ '\x7d' ∉ inside ∧
      namePart? form inside = some part ∧ s.name = Text.trim part := by
  obtain ⟨between, inside, part, before, rest⟩ := splitFrom_eq_some found
  rw [List.reverse_nil, List.nil_append] at before
  exact ⟨inside, part, before ▸ rest⟩

theorem not_mem_name {s : Split} (found : split? form t = some s) : '\x7d' ∉ s.name := by
  obtain ⟨inside, part, -, open_still, named, trimmed⟩ := split?_eq_some found
  rw [trimmed]
  intro member
  exact open_still ((namePart?_sublist named).subset ((Text.trim_sublist part).subset member))

theorem segments_of_none (missing : split? form t = none) : segments form t = ([], t) := by
  rw [segments]
  split
  · rfl
  · next s found => simp [missing] at found

theorem segments_of_some {s : Split} (found : split? form t = some s) :
    segments form t =
      (⟨s.before, s.name⟩ :: (segments form s.after).1, (segments form s.after).2) := by
  rw [segments]
  split
  · next missing => simp [missing] at found
  · next s' found' =>
    cases found.symm.trans found'
    rfl

end Reference

end DrawPile
