import DrawPile.Proofs.Text
import DrawPile.Text.Case

/-! Small letters of a text in the midst of another. Every character but the capital sigma has its
small form for itself; a sigma takes the form for the end of a word or the usual one by what stands
around it. So a piece of a text has the same small letters as for itself exactly if each of its sigmas
is at the end of a word in the text if it is in the piece. -/
namespace DrawPile.Text

/-- Whether a capital sigma takes the form for the end of a word; the nearest character of both texts
comes first. -/
def wordEnd (before after : Text) : Bool := meetsCased before && !meetsCased after

def smallForm (before after : Text) (c : Char) : Text :=
  if c.toNat = 0x3a3 then
    if wordEnd before after then [Char.ofNat 0x3c2] else [Char.ofNat 0x3c3]
  else lowerChar c

theorem lowerFrom_cons (before after : Text) (c : Char) :
    lowerFrom before (c :: after) = smallForm before after c ++ lowerFrom (c :: before) after := rfl

theorem toNat_eq_sigma_iff {c : Char} : c.toNat = 0x3a3 ↔ c = 'Σ' := by
  rw [show 0x3a3 = 'Σ'.toNat from rfl, Char.toNat_inj]

theorem smallForm_of_ne {before after : Text} {c : Char} (different : c ≠ 'Σ') :
    smallForm before after c = lowerChar c :=
  if_neg (mt toNat_eq_sigma_iff.1 different)

theorem length_smallForm {before after before' after' : Text} {c : Char} :
    (smallForm before after c).length = (smallForm before' after' c).length := by
  by_cases sigma : c = 'Σ'
  · have single (b a : Text) : (smallForm b a 'Σ').length = 1 := by
      cases end_ : wordEnd b a <;> simp [smallForm, end_]
    rw [sigma, single, single]
  · rw [smallForm_of_ne sigma, smallForm_of_ne sigma]

theorem smallForm_eq_iff {before after before' after' : Text} {c : Char} :
    smallForm before after c = smallForm before' after' c ↔
      (c = 'Σ' → wordEnd before after = wordEnd before' after') := by
  by_cases sigma : c = 'Σ'
  · subst sigma
    cases here : wordEnd before after <;> cases there : wordEnd before' after' <;>
      simp [smallForm, here, there]
  · simp [smallForm_of_ne sigma, sigma]

/-- The small letters of a text between two others. -/
def lowerWithin (before after : Text) : Text → Text
  | [] => []
  | c :: t => smallForm before (t ++ after) c ++ lowerWithin (c :: before) after t

theorem lowerFrom_append (before t after : Text) :
    lowerFrom before (t ++ after) =
      lowerWithin before after t ++ lowerFrom (t.reverse ++ before) after := by
  induction t generalizing before with
  | nil => rfl
  | cons c t ih => simp [lowerFrom_cons, lowerWithin, ih]

theorem lowerWithin_nil (before t : Text) : lowerWithin before [] t = lowerFrom before t := by
  have whole := lowerFrom_append before t []
  rwa [List.append_nil, lowerFrom, List.append_nil, eq_comm] at whole

theorem lower_append_append (front t back : Text) :
    lower (front ++ t ++ back) = lowerWithin [] (t ++ back) front ++
      lowerWithin front.reverse back t ++ lowerFrom (front ++ t).reverse back := by
  rw [lower, List.append_assoc, lowerFrom_append, lowerFrom_append]
  simp

/-- A text has the same small letters in two places exactly if each sigma in it takes the same form
in both. -/
theorem lowerWithin_eq_iff {before after before' after' t : Text} :
    lowerWithin before after t = lowerWithin before' after' t ↔
      ∀ a b, t = a ++ 'Σ' :: b →
        wordEnd (a.reverse ++ before) (b ++ after) =
          wordEnd (a.reverse ++ before') (b ++ after') := by
  induction t generalizing before before' with
  | nil => simp [lowerWithin]
  | cons c t ih =>
    simp only [lowerWithin]
    constructor
    · intro same a b split
      obtain ⟨first, rest⟩ := List.append_inj same length_smallForm
      rw [smallForm_eq_iff] at first
      rw [ih] at rest
      cases a with
      | nil =>
        cases split
        exact first rfl
      | cons d a =>
        cases split
        simpa using rest a b rfl
    · intro all
      congr 1
      · exact smallForm_eq_iff.2 fun sigma => all [] t (by rw [sigma]; rfl)
      · exact ih.2 fun a b split => by simpa using all (c :: a) b (by rw [split]; rfl)

/-- The search for a letter ends within a text that has a character that is not passed over. -/
theorem meetsCased_append {after t : Text} (stops : ∃ c ∈ t, isCaseIgnorable c = false) :
    meetsCased (t ++ after) = meetsCased t := by
  obtain ⟨c, member, kept⟩ := stops
  have rest : t.dropWhile isCaseIgnorable ≠ [] := fun none => by
    have passed := List.dropWhile_eq_nil_iff.1 none c member
    rw [kept] at passed
    cases passed
  rw [meetsCased, meetsCased, List.dropWhile_append]
  cases left : t.dropWhile isCaseIgnorable with
  | nil => exact absurd left rest
  | cons d ds => rfl

/-- Each capital sigma of a text takes the same form between two others as without them. -/
def KeepsSigmas (front back t : Text) : Prop :=
  ∀ a b, t = a ++ 'Σ' :: b → wordEnd (a.reverse ++ front.reverse) (b ++ back) = wordEnd a.reverse b

theorem keepsSigmas_iff {t front back : Text} :
    KeepsSigmas front back t ↔ lowerWithin front.reverse back t = lower t := by
  rw [lower, ← lowerWithin_nil, lowerWithin_eq_iff, KeepsSigmas]
  simp only [List.append_nil]

/-- Each capital sigma of a text stands between characters of it that are not passed over. -/
def EnclosesSigmas (t : Text) : Prop :=
  ∀ a b, t = a ++ 'Σ' :: b →
    (∃ c ∈ a, isCaseIgnorable c = false) ∧ ∃ c ∈ b, isCaseIgnorable c = false

theorem EnclosesSigmas.keeps {t : Text} (encloses : EnclosesSigmas t) (front back : Text) :
    KeepsSigmas front back t := by
  intro a b split
  obtain ⟨⟨c, c_there, c_stops⟩, inside⟩ := encloses a b split
  have outside : ∃ c ∈ a.reverse, isCaseIgnorable c = false :=
    ⟨c, List.mem_reverse.2 c_there, c_stops⟩
  rw [wordEnd, wordEnd, meetsCased_append outside, meetsCased_append inside]

end DrawPile.Text
