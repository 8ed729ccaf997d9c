import DrawPile.Proofs.Json.Scalar

/-! Numbers in the order of words. Texts compare character by character, and so do the digits of
numbers: of two numbers with as many digits the smaller comes first, but a longer one comes before a
shorter one if it begins with smaller digits, as 10 comes before 2. -/
namespace DrawPile.Text

theorem append_lt_append_iff {s t : Text} (length : s.length = t.length) (u v : Text) :
    s ++ u < t ++ v ↔ s < t ∨ s = t ∧ u < v := by
  induction s generalizing t with
  | nil =>
    obtain rfl : t = [] := List.length_eq_zero_iff.1 length.symm
    simp
  | cons c s ih =>
    cases t with
    | nil => cases length
    | cons d t =>
      have rest := @ih t (Nat.succ.inj length)
      simp only [List.cons_append, List.cons_lt_cons_iff, rest, List.cons.injEq]
      constructor
      · rintro (less | ⟨same, less | ⟨rfl, less⟩⟩)
        · exact .inl (.inl less)
        · exact .inl (.inr ⟨same, less⟩)
        · exact .inr ⟨⟨same, rfl⟩, less⟩
      · rintro ((less | ⟨same, less⟩) | ⟨⟨same, rest⟩, less⟩)
        · exact .inl less
        · exact .inr ⟨same, .inl less⟩
        · exact .inr ⟨same, .inr ⟨rest, less⟩⟩

theorem digitChar_lt_iff : ∀ m < 10, ∀ n < 10, (Nat.digitChar m < Nat.digitChar n ↔ m < n) := by
  decide

theorem ofNat_of_small {n : Nat} (small : n < 10) : ofNat n = [Nat.digitChar n] :=
  Nat.toDigits_of_lt_base small

theorem ofNat_of_large {n : Nat} (large : 10 ≤ n) :
    ofNat n = ofNat (n / 10) ++ [Nat.digitChar (n % 10)] :=
  Nat.toDigits_of_base_le (by decide) large

theorem length_ofNat_pos (n : Nat) : 0 < (ofNat n).length := List.length_pos_iff.2 (ofNat_ne_nil n)

/-- As many digits as a number has, from the front of one that has no fewer. -/
def firstDigits (n m : Nat) : Nat := n / Nat.pow 10 ((ofNat n).length - (ofNat m).length)

/-- Numbers with as many digits come in their own order. -/
theorem ofNat_lt_ofNat_iff {m n : Nat} (length : (ofNat m).length = (ofNat n).length) :
    ofNat m < ofNat n ↔ m < n := by
  induction m using Nat.strongRecOn generalizing n with
  | ind m ih =>
    rcases Nat.lt_or_ge m 10 with small | large <;> rcases Nat.lt_or_ge n 10 with small' | large'
    · rw [ofNat_of_small small, ofNat_of_small small', List.cons_lt_cons_iff]
      simp [digitChar_lt_iff m small n small']
    · have longer := length_ofNat_pos (n / 10)
      rw [ofNat_of_small small, ofNat_of_large large', List.length_append] at length
      simp only [List.length_singleton] at length
      omega
    · have longer := length_ofNat_pos (m / 10)
      rw [ofNat_of_large large, ofNat_of_small small', List.length_append] at length
      simp only [List.length_singleton] at length
      omega
    · have shorter : (ofNat (m / 10)).length = (ofNat (n / 10)).length := by
        rw [ofNat_of_large large, ofNat_of_large large', List.length_append,
          List.length_append] at length
        exact Nat.add_right_cancel length
      have front := @ih (m / 10) (by omega) (n / 10) shorter
      have same : ofNat (m / 10) = ofNat (n / 10) ↔ m / 10 = n / 10 :=
        ⟨fun same => by simpa using congrArg toNat same, fun same => by rw [same]⟩
      have last := digitChar_lt_iff (m % 10) (Nat.mod_lt m (by decide)) (n % 10)
        (Nat.mod_lt n (by decide))
      rw [ofNat_of_large large, ofNat_of_large large', append_lt_append_iff shorter, front, same,
        List.cons_lt_cons_iff, last]
      simp
      omega

theorem exists_firstDigits (n k : Nat) (shorter : k < (ofNat n).length) :
    ∃ rest, rest.length = k ∧ ofNat n = ofNat (n / Nat.pow 10 k) ++ rest := by
  induction k with
  | zero => exact ⟨[], rfl, by simp⟩
  | succ k ih =>
    obtain ⟨rest, length, split⟩ := ih (by omega)
    have large : 10 ≤ n / Nat.pow 10 k := by
      by_contra small
      rw [split, ofNat_of_small (Nat.lt_of_not_le small), List.length_append, length] at shorter
      simp only [List.length_singleton] at shorter
      omega
    refine ⟨Nat.digitChar (n / Nat.pow 10 k % 10) :: rest, congrArg (· + 1) length, ?_⟩
    rw [split, ofNat_of_large large, Nat.div_div_eq_div_mul, List.append_assoc]
    rfl

/-- A number with no fewer digits comes before another exactly if its first digits, as many as the
other has, are a smaller number. -/
theorem ofNat_lt_ofNat_iff_firstDigits {m n : Nat} (length : (ofNat m).length ≤ (ofNat n).length) :
    ofNat n < ofNat m ↔ firstDigits n m < m := by
  have some_left : (ofNat n).length - (ofNat m).length < (ofNat n).length := by
    have positive := length_ofNat_pos m
    omega
  obtain ⟨rest, cut, split⟩ := exists_firstDigits n _ some_left
  have equal : (ofNat (firstDigits n m)).length = (ofNat m).length := by
    have whole := congrArg List.length split
    rw [List.length_append, cut] at whole
    rw [firstDigits]
    omega
  have compare := append_lt_append_iff equal rest []
  rw [List.append_nil, firstDigits, ← split] at compare
  rw [compare, ← firstDigits, ofNat_lt_ofNat_iff equal]
  simp

theorem length_ofNat_mono {m n : Nat} (less : m ≤ n) : (ofNat m).length ≤ (ofNat n).length := by
  have bounded (k : Nat) : (ofNat k).length ≤ (ofNat n).length ↔ k < 10 ^ (ofNat n).length :=
    Nat.length_toDigits_le_iff (by decide) (length_ofNat_pos n)
  exact (bounded m).2 (Nat.lt_of_le_of_lt less ((bounded n).1 (Nat.le_refl _)))

end DrawPile.Text
