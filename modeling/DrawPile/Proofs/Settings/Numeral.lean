import DrawPile.Proofs.Number.Numeral
import DrawPile.Proofs.Text
import DrawPile.Settings.Numeral

/-! Numerals in settings. Of all the ways in which a whole number may be typed the plain one is read
back, whatever blanks stand around it, as long as its digits are not too many. -/
namespace DrawPile

namespace Settings.Numeral

theorem not_digit_of_isSpace {c : Char} (space : isSpace c = true) : Text.isDigit c = false := by
  by_contra digit
  have blank : Text.isBlank c = false := Text.isBlank_of_isDigit (by simpa using digit)
  simp [isSpace, blank] at space

theorem not_isSpace_of_digit {c : Char} (digit : Text.isDigit c = true) : isSpace c = false := by
  by_contra space
  have other := not_digit_of_isSpace (by simpa using space)
  rw [digit] at other
  cases other

theorem not_isSpace_ofInt (n : Int) : ∀ c ∈ Text.ofInt n, isSpace c = false := by
  obtain ⟨sign, signed, spelled⟩ := Text.exists_sign n
  intro c member
  rw [spelled, List.mem_append] at member
  rcases member with member | member
  · have marks : Decimal.marks.all (fun c => !isSpace c) = true := rfl
    simpa using List.all_eq_true.1 marks c (signed.chars c member)
  · exact not_isSpace_of_digit (Text.isDigit_of_mem_ofNat member)

theorem splitMinus_ofInt (n : Int) (rest : Text) :
    splitMinus (Text.ofInt n ++ rest) = (decide (n < 0), Text.ofNat n.natAbs ++ rest) := by
  cases n with
  | negSucc m =>
    rw [decide_eq_true (Int.negSucc_lt_zero m)]
    rfl
  | ofNat m =>
    obtain ⟨c, t, spelled⟩ := List.exists_cons_of_ne_nil (Text.ofNat_ne_nil m)
    have digit : Text.isDigit c = true := Text.digits_ofNat m c (spelled ▸ List.mem_cons_self)
    have whole : Text.ofInt (.ofNat m) = c :: t := spelled
    have no_minus : c ≠ '-' := Text.ne_of_isDigit digit rfl
    have positive : ¬ Int.ofNat m < 0 := by simp
    rw [whole, decide_eq_false positive, Int.natAbs_ofNat', spelled]
    simp [splitMinus, no_minus]

theorem isTooLong_ofInt {n : Int} {back : Text}
    (short : (Text.ofNat n.natAbs).length ≤ Text.maxDigits)
    (behind : ∀ c ∈ back, isSpace c = true) : isTooLong (Text.ofInt n ++ back) = false := by
  have stops : ∀ c ∈ back.head?, Text.isDigit c = false := fun c first =>
    not_digit_of_isSpace (behind c (List.mem_of_mem_head? first))
  have digits : (Text.ofNat n.natAbs ++ back).takeWhile Text.isDigit = Text.ofNat n.natAbs :=
    congrArg Prod.fst (Text.splitDigits_append (Text.digits_ofNat _) stops)
  simp only [isTooLong, splitMinus_ofInt, digits, decide_eq_false (Nat.not_lt_of_le short),
    Bool.and_false]

/-- Blanks in front of a numeral hide its length. -/
theorem isTooLong_of_isSpace {c : Char} (space : isSpace c = true) (t : Text) :
    isTooLong (c :: t) = false := by
  have no_digit := not_digit_of_isSpace space
  have no_minus : c ≠ '-' := by
    rintro rfl
    cases space
  simp [isTooLong, splitMinus, no_minus, isLeadingDigit, no_digit]

theorem dropZeroFraction_ofNat (m : Nat) : dropZeroFraction (Text.ofNat m) = Text.ofNat m := by
  have no_point : (Text.ofNat m).dropWhile (· != '.') = [] := by
    rw [List.dropWhile_eq_nil_iff]
    intro c member
    simpa using Text.ne_of_isDigit (Text.isDigit_of_mem_ofNat member) rfl
  rw [dropZeroFraction, no_point]

theorem isLeadingDigit_head? {m : Nat} (positive : 0 < m) :
    ∃ c t, Text.ofNat m = c :: t ∧ isLeadingDigit c = true := by
  obtain ⟨c, t, spelled⟩ := List.exists_cons_of_ne_nil (Text.ofNat_ne_nil m)
  have digit : Text.isDigit c = true := Text.digits_ofNat m c (spelled ▸ List.mem_cons_self)
  have first := Text.head?_ofNat_ne_zero positive
  rw [spelled, List.head?_cons] at first
  have nonzero : c ≠ '0' := fun zero => first (congrArg some zero)
  exact ⟨c, t, spelled, by simp [isLeadingDigit, digit, nonzero]⟩

theorem dropLeadingZeros?_ofNat (m : Nat) : dropLeadingZeros? (Text.ofNat m) = some (Text.ofNat m) := by
  rcases Nat.eq_zero_or_pos m with rfl | positive
  · decide
  · obtain ⟨c, t, spelled, leading⟩ := isLeadingDigit_head? positive
    rw [spelled]
    unfold dropLeadingZeros?
    split
    · next zero =>
      cases zero
      cases leading
    · next same =>
      cases same
      rw [if_pos leading]
    · next none => cases none

theorem dropUnderscores_ofNat (m : Nat) : dropUnderscores (Text.ofNat m) = Text.ofNat m := by
  have none_left_out : (Text.ofNat m).filter (· != '_') = Text.ofNat m := by
    rw [List.filter_eq_self]
    intro c member
    simpa using Text.ne_of_isDigit (Text.isDigit_of_mem_ofNat member) rfl
  rw [dropUnderscores, none_left_out, ite_self]

/-- A plain numeral is what is meant by it, also between blanks. -/
theorem clean?_ofInt {n : Int} {front back : Text} (before : ∀ c ∈ front, isSpace c = true)
    (behind : ∀ c ∈ back, isSpace c = true) :
    clean? (front ++ Text.ofInt n ++ back) = some (Text.ofInt n) := by
  obtain ⟨sign, signed, spelled⟩ := Text.exists_sign n
  have unsigned : ∀ c ∈ (Text.ofNat n.natAbs).head?, c ≠ '+' ∧ c ≠ '-' := by
    intro c first
    have plain := Decimal.plain_of_digit (Text.Digits.head? (Text.digits_ofNat _) c first)
    exact ⟨plain.1, plain.2.1⟩
  have split : Decimal.splitSign (Text.ofInt n) = (decide (n < 0), Text.ofNat n.natAbs) := by
    rw [spelled]
    exact Decimal.splitSign_append signed unsigned
  have written : Text.ofInt n =
      if n < 0 then '-' :: Text.ofNat n.natAbs else Text.ofNat n.natAbs := by
    cases n <;> simp [Text.ofInt]
  rw [clean?, Text.trimOf_between before behind (not_isSpace_ofInt n), split]
  simp only [dropZeroFraction_ofNat, dropLeadingZeros?_ofNat, dropUnderscores_ofNat, Option.map_some,
    decide_eq_true_eq]
  rw [← written]

theorem plain?_ofInt {n : Int} (short : (Text.ofNat n.natAbs).length ≤ Text.maxDigits) :
    plain? (Text.ofInt n) = some n := by
  have split := splitMinus_ofInt n []
  have long := isTooLong_ofInt short (List.forall_mem_nil _)
  rw [List.append_nil, List.append_nil] at split
  rw [List.append_nil] at long
  have numeral : Text.ofNat n.natAbs = ['0'] ∨
      (Text.ofNat n.natAbs).head?.any isLeadingDigit &&
        (Text.ofNat n.natAbs).all Text.isDigit := by
    rcases Nat.eq_zero_or_pos n.natAbs with zero | positive
    · exact .inl (by rw [zero]; rfl)
    · obtain ⟨c, t, spelled, leading⟩ := isLeadingDigit_head? positive
      have all := (Text.digits_iff_all _).2 (Text.digits_ofNat n.natAbs)
      exact .inr (by rw [all, spelled]; simp [leading])
  simp only [plain?, split, if_pos numeral, long, Bool.false_eq_true, if_false, Text.toNat_ofNat,
    decide_eq_true_eq, Option.some.injEq]
  split <;> omega

/-- Whole numbers are read as they are written, with any blanks around them. -/
theorem read_ofInt {n : Int} {front back : Text}
    (short : (Text.ofNat n.natAbs).length ≤ Text.maxDigits) (before : ∀ c ∈ front, isSpace c = true)
    (behind : ∀ c ∈ back, isSpace c = true) :
    read (front ++ Text.ofInt n ++ back) = .ok n := by
  have long : isTooLong (front ++ Text.ofInt n ++ back) = false := by
    cases front with
    | nil => exact isTooLong_ofInt short behind
    | cons c front => exact isTooLong_of_isSpace (before c List.mem_cons_self) _
  simp only [read, long, clean?_ofInt before behind, Option.bind_some, plain?_ofInt short,
    Bool.false_eq_true, if_false]

end Settings.Numeral

end DrawPile
