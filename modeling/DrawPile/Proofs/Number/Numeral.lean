import DrawPile.Proofs.Json.Scalar
import DrawPile.Proofs.Number.Overflow
import DrawPile.Proofs.Text

/-! Numerals as they are spelled. A numeral is a sign, digits with a point among them and an exponent,
each but the digits as one likes; the number that it stands for is rounded to the nearest float. -/
namespace DrawPile

/-- Digits and nothing else; there may be none. -/
def Text.Digits (t : Text) : Prop := ∀ c ∈ t, isDigit c = true

namespace Decimal

/- Signs as they are written, and whether they make a number negative. -/
inductive Sign : Text → Bool → Prop
  | none : Sign [] false
  | plus : Sign ['+'] false
  | minus : Sign ['-'] true

/- What is written behind the whole digits, and the digits in it. -/
inductive Fraction : Text → Text → Prop
  | none : Fraction [] []
  | point {digits : Text} (all : digits.Digits) : Fraction ('.' :: digits) digits

inductive Exponent : Text → Int → Prop
  | none : Exponent [] 0
  | given {mark : Char} {sign digits : Text} {negative : Bool} (letter : mark = 'e' ∨ mark = 'E')
      (signed : Sign sign negative) (some : digits ≠ []) (all : digits.Digits) :
      Exponent (mark :: (sign ++ digits))
        (if negative then -(Text.toNat digits : Int) else Text.toNat digits)

/- A numeral without its sign. -/
inductive Unsigned (negative : Bool) : Text → Decimal → Prop
  | spelled {whole written fraction power : Text} {exponent : Int} (all : whole.Digits)
      (point : Fraction written fraction) (some : whole ≠ [] ∨ fraction ≠ [])
      (scaled : Exponent power exponent) :
      Unsigned negative (whole ++ (written ++ power))
        ⟨negative, Text.toNat (whole ++ fraction), exponent - fraction.length⟩

/-- A text spells a number. -/
inductive Numeral : Text → Decimal → Prop
  | spelled {sign body : Text} {d : Decimal} (signed : Sign sign d.negative)
      (unsigned : Unsigned d.negative body d) : Numeral (sign ++ body) d

end Decimal

namespace Text

theorem Digits.head? {digits : Text} (all : digits.Digits) : ∀ c ∈ digits.head?, isDigit c = true :=
  fun _ first => all _ (List.mem_of_mem_head? first)

theorem digits_iff_all (digits : Text) : digits.all isDigit = true ↔ digits.Digits :=
  List.all_eq_true

theorem splitDigits_spec (t : Text) :
    (Decimal.splitDigits t).1.Digits ∧
      (Decimal.splitDigits t).1 ++ (Decimal.splitDigits t).2 = t := by
  exact ⟨(digits_iff_all _).1 List.all_takeWhile, List.takeWhile_append_dropWhile⟩

end Text

namespace Decimal
variable {negative : Bool}

/-- No sign is read where there is none. -/
theorem splitSign_append {body sign : Text} (signed : Sign sign negative)
    (plain : ∀ c ∈ body.head?, c ≠ '+' ∧ c ≠ '-') :
    splitSign (sign ++ body) = (negative, body) := by
  cases signed with
  | plus | minus => rfl
  | none =>
    cases body with
    | nil => rfl
    | cons c body =>
      obtain ⟨not_plus, not_minus⟩ := plain c rfl
      simp [splitSign, not_plus, not_minus]

theorem splitSign_spec (t : Text) :
    ∃ sign, Sign sign (splitSign t).1 ∧ sign ++ (splitSign t).2 = t := by
  unfold splitSign
  split
  · exact ⟨['-'], .minus, rfl⟩
  · exact ⟨['+'], .plus, rfl⟩
  · exact ⟨[], .none, rfl⟩

theorem plain_of_digit {c : Char} (digit : Text.isDigit c = true) :
    c ≠ '+' ∧ c ≠ '-' ∧ c ≠ '.' ∧ c ≠ 'e' ∧ c ≠ 'E' :=
  ⟨Text.ne_of_isDigit digit rfl, Text.ne_of_isDigit digit rfl, Text.ne_of_isDigit digit rfl,
    Text.ne_of_isDigit digit rfl, Text.ne_of_isDigit digit rfl⟩

theorem exponent?_eq_some_iff {power : Text} {exponent : Int} :
    exponent? power = some exponent ↔ Exponent power exponent := by
  constructor
  · intro read
    cases power with
    | nil =>
      cases read
      exact .none
    | cons mark t =>
      obtain ⟨sign, signed, same⟩ := splitSign_spec t
      rw [exponent?] at read
      generalize splitSign t = parts at *
      obtain ⟨negative, digits⟩ := parts
      simp only [Option.ite_none_right_eq_some, Option.ite_none_left_eq_some, Option.some.injEq,
        Bool.or_eq_true, List.isEmpty_iff, Bool.not_eq_true', not_or, Bool.not_eq_false,
        Text.digits_iff_all] at read
      obtain ⟨letter, ⟨some, all⟩, rfl⟩ := read
      rw [← same]
      exact .given letter signed some all
  · rintro (_ | ⟨letter, signed, some, all⟩)
    · rfl
    · next mark sign digits negative =>
      have split : splitSign (sign ++ digits) = (negative, digits) := by
        apply splitSign_append signed
        intro c first
        have plain := plain_of_digit (Text.Digits.head? all c first)
        exact ⟨plain.1, plain.2.1⟩
      have written : (digits.isEmpty || !digits.all Text.isDigit) = false := by
        simp [some, (Text.digits_iff_all digits).2 all]
      simp only [exponent?, letter, if_true, split, written, Bool.false_eq_true, if_false]

theorem Exponent.head? {power : Text} {exponent : Int} (scaled : Exponent power exponent) :
    ∀ c ∈ power.head?, c = 'e' ∨ c = 'E' := by
  cases scaled with
  | none => rintro _ ⟨⟩
  | given letter =>
    rintro _ ⟨⟩
    exact letter

theorem Exponent.not_digit {power : Text} {exponent : Int} (scaled : Exponent power exponent) :
    ∀ c ∈ power.head?, Text.isDigit c = false := by
  intro c first
  rcases scaled.head? c first with rfl | rfl <;> rfl

theorem splitFraction_append {written fraction power : Text} {exponent : Int}
    (point : Fraction written fraction) (scaled : Exponent power exponent) :
    splitFraction (written ++ power) = (fraction, power) := by
  cases point with
  | point all => exact Text.splitDigits_append all scaled.not_digit
  | none =>
    cases power with
    | nil => rfl
    | cons c power =>
      have no_point : c ≠ '.' := by
        rcases scaled.head? c rfl with rfl | rfl <;> decide
      simp [splitFraction, no_point]

theorem splitFraction_spec (t : Text) :
    ∃ written, Fraction written (splitFraction t).1 ∧ written ++ (splitFraction t).2 = t := by
  unfold splitFraction
  split
  · next t =>
    obtain ⟨all, same⟩ := Text.splitDigits_spec t
    exact ⟨_, .point all, congrArg ('.' :: ·) same⟩
  · exact ⟨[], .none, rfl⟩

theorem ofBody?_eq_some_iff {body : Text} {d : Decimal} :
    ofBody? negative body = some d ↔ Unsigned negative body d := by
  constructor
  · intro read
    obtain ⟨all, whole⟩ := Text.splitDigits_spec body
    obtain ⟨written, point, rest⟩ := splitFraction_spec (splitDigits body).2
    unfold ofBody? at read
    simp only at read
    split at read
    · cases read
    · next digits =>
      obtain ⟨exponent, scaled, rfl⟩ := Option.map_eq_some_iff.1 read
      have some : (splitDigits body).1 ≠ [] ∨ (splitFraction (splitDigits body).2).1 ≠ [] := by
        simpa [Classical.or_iff_not_imp_left] using digits
      have spelled := @Unsigned.spelled negative _ _ _ _ _ all point some
        (exponent?_eq_some_iff.1 scaled)
      rwa [rest, whole] at spelled
  · rintro ⟨all, point, some, scaled⟩
    next whole written fraction power exponent =>
    have stops : ∀ c ∈ (written ++ power).head?, Text.isDigit c = false := by
      cases point with
      | none => exact scaled.not_digit
      | point => rintro _ ⟨⟩; rfl
    have digits : (whole.isEmpty && fraction.isEmpty) = false := by
      rcases some with some | some <;> simp [some]
    simp only [ofBody?, Text.splitDigits_append all stops, splitFraction_append point scaled,
      digits, exponent?_eq_some_iff.2 scaled, Bool.false_eq_true, if_false, Option.map_some]

theorem Unsigned.head? {body : Text} {d : Decimal} (unsigned : Unsigned negative body d) :
    ∃ c, body.head? = some c ∧ (Text.isDigit c = true ∨ c = '.') := by
  obtain ⟨all, point, some, scaled⟩ := unsigned
  next whole written fraction power exponent =>
  cases whole with
  | cons c whole => exact ⟨c, rfl, .inl (all c List.mem_cons_self)⟩
  | nil =>
    cases point with
    | point => exact ⟨'.', rfl, .inr rfl⟩
    | none => simp at some

/- The characters that numerals are written with, apart from digits. -/
def marks : Text := ['+', '-', '.', 'e', 'E']

theorem Sign.chars {sign : Text} (signed : Sign sign negative) : ∀ c ∈ sign, c ∈ marks := by
  cases signed <;> simp [marks]

theorem Exponent.chars {power : Text} {exponent : Int} (scaled : Exponent power exponent) :
    ∀ c ∈ power, Text.isDigit c = true ∨ c ∈ marks := by
  cases scaled with
  | none => simp
  | given letter signed some all =>
    intro c member
    rw [List.mem_cons, List.mem_append] at member
    rcases member with rfl | member | member
    · rcases letter with rfl | rfl <;> decide
    · exact .inr (signed.chars c member)
    · exact .inl (all c member)

theorem Unsigned.chars {body : Text} {d : Decimal} (unsigned : Unsigned negative body d) :
    ∀ c ∈ body, Text.isDigit c = true ∨ c ∈ marks := by
  obtain ⟨all, point, some, scaled⟩ := unsigned
  intro c member
  rw [List.mem_append, List.mem_append] at member
  rcases member with member | member | member
  · exact .inl (all c member)
  · cases point with
    | none => cases member
    | point all =>
      rcases List.mem_cons.1 member with rfl | member
      · decide
      · exact .inl (all c member)
  · exact scaled.chars c member

theorem Numeral.chars {t : Text} {d : Decimal} (numeral : Numeral t d) :
    ∀ c ∈ t, Text.isDigit c = true ∨ c ∈ marks := by
  obtain ⟨signed, unsigned⟩ := numeral
  intro c member
  rcases List.mem_append.1 member with member | member
  · exact .inr (signed.chars c member)
  · exact unsigned.chars c member

theorem Unsigned.negative_eq {body : Text} {d : Decimal} (unsigned : Unsigned negative body d) :
    d.negative = negative := by
  cases unsigned
  rfl

end Decimal

namespace Binary64

theorem toLower_ne {c : Char} (first : Text.isDigit c = true ∨ c = '.') :
    c.toLower ≠ 'i' ∧ c.toLower ≠ 'n' := by
  have small : c.val ≤ '9'.val := by
    rcases first with digit | rfl
    · have bounds : '0' ≤ c ∧ c ≤ '9' := by simpa [Text.isDigit] using digit
      exact bounds.2
    · decide
  have same : c.toLower = c := by
    unfold Char.toLower
    split
    · next capital => exact absurd (UInt32.le_trans capital.1 small) (by decide)
    · rfl
  rw [same]
  constructor <;> rintro rfl <;> revert small <;> decide

/-- No numeral is a name of infinity, or of not a number. -/
theorem lowerAscii_unsigned {body : Text} {d : Decimal} {negative : Bool}
    (unsigned : Decimal.Unsigned negative body d) :
    lowerAscii body ∉ infinityNames ∧ lowerAscii body ≠ "nan".toList := by
  obtain ⟨c, first, known⟩ := unsigned.head?
  obtain ⟨not_i, not_n⟩ := toLower_ne known
  have lowered : (lowerAscii body).head? = some c.toLower := by
    rw [lowerAscii, List.head?_map, first, Option.map_some]
  constructor
  · intro named
    have initial : ∀ name ∈ infinityNames, name.head? = some 'i' := by decide
    rw [initial _ named] at lowered
    exact not_i (Option.some.inj lowered).symm
  · intro named
    rw [named] at lowered
    exact not_n (Option.some.inj lowered).symm

theorem parse?_eq_finite_iff {t : Text} {negative : Bool} {rank : Fin infinityRank} :
    parse? t = some (.finite negative rank) ↔
      ∃ d, Decimal.Numeral t d ∧ d.toBinary64 = .finite negative rank := by
  constructor
  · intro read
    obtain ⟨sign, signed, same⟩ := Decimal.splitSign_spec t
    unfold parse? at read
    generalize Decimal.splitSign t = parts at *
    obtain ⟨minus, body⟩ := parts
    simp only at read
    split_ifs at read
    · cases read
    · cases read
    · obtain ⟨d, unsigned, value⟩ := Option.map_eq_some_iff.1 read
      rw [Decimal.ofBody?_eq_some_iff] at unsigned
      obtain rfl := unsigned.negative_eq
      rw [← same]
      exact ⟨d, .spelled signed unsigned, value⟩
  · rintro ⟨d, ⟨signed, unsigned⟩, value⟩
    next sign body =>
    obtain ⟨not_infinity, not_nan⟩ := lowerAscii_unsigned unsigned
    have split : Decimal.splitSign (sign ++ body) = (d.negative, body) := by
      apply Decimal.splitSign_append signed
      obtain ⟨c, first, digit | rfl⟩ := unsigned.head?
      · rw [first]
        rintro _ ⟨⟩
        have plain := Decimal.plain_of_digit digit
        exact ⟨plain.1, plain.2.1⟩
      · rw [first]
        rintro _ ⟨⟩
        decide
    simp only [parse?, split, if_neg not_infinity, if_neg not_nan,
      Decimal.ofBody?_eq_some_iff.2 unsigned, Option.map_some, value]

theorem plainChar?_ascii {c : Char} (ascii : c.toNat < 128) : plainChar? c = some c := if_pos ascii

theorem mapM_plainChar? {t : Text} (ascii : ∀ c ∈ t, c.toNat < 128) :
    t.mapM plainChar? = some t := by
  induction t with
  | nil => rfl
  | cons c t ih =>
    have rest := ih fun d member => ascii d (List.mem_cons_of_mem c member)
    simp only [List.mapM_cons, plainChar?_ascii (ascii c List.mem_cons_self), rest]
    rfl

theorem dropSeparators_without {t : Text} (without : ∀ c ∈ t, c ≠ '_') (afterDigit : Bool) :
    dropSeparators afterDigit t = some t := by
  induction t generalizing afterDigit with
  | nil => rfl
  | cons c t ih =>
    have first : c ≠ '_' := without c List.mem_cons_self
    have rest := ih fun d member => without d (List.mem_cons_of_mem c member)
    simp [dropSeparators, first, rest]

theorem numeral_char {c : Char} (known : Text.isDigit c = true ∨ c ∈ Decimal.marks) :
    c.toNat < 128 ∧ isAsciiBlank c = false ∧ c ≠ '_' := by
  rcases known with digit | mark
  · have bounds : 48 ≤ c.toNat ∧ c.toNat ≤ 57 := by
      simpa [Text.isDigit, Char.le_def, UInt32.le_iff_toNat_le] using digit
    have no_space : c ≠ ' ' := Text.ne_of_isDigit digit rfl
    have no_control : ¬ c.toNat ≤ 13 := by omega
    refine ⟨by omega, ?_, Text.ne_of_isDigit digit rfl⟩
    simp [isAsciiBlank, no_space, no_control]
  · have marks : Decimal.marks.all (fun c =>
        decide (c.toNat < 128) && !isAsciiBlank c && decide (c ≠ '_')) = true := rfl
    simpa [and_assoc] using List.all_eq_true.1 marks c mark

/-- A numeral is read loosely as it is read strictly. -/
theorem parseLoose?_numeral {t : Text} {d : Decimal} (numeral : Decimal.Numeral t d) :
    parseLoose? t = parse? t := by
  have chars (c : Char) (member : c ∈ t) := numeral_char (numeral.chars c member)
  have trimmed : Text.trimOf isAsciiBlank t = t := by
    have inside := @Text.trimOf_between isAsciiBlank [] t [] (by simp) (by simp)
      fun c member => (chars c member).2.1
    rwa [List.append_nil, List.nil_append] at inside
  rw [parseLoose?, mapM_plainChar? fun c member => (chars c member).1, Option.bind_some, trimmed,
    dropSeparators_without fun c member => (chars c member).2.2, Option.bind_some]

end Binary64

namespace Decimal
open Binary64

/-- The number that a decimal stands for. -/
def value (d : Decimal) : ℚ := (if d.negative then -1 else 1) * d.digits * 10 ^ d.exponent

def num (d : Decimal) : Nat := d.digits * Nat.pow 10 d.exponent.toNat

def den (d : Decimal) : Nat := Nat.pow 10 (-d.exponent).toNat

theorem den_pos (d : Decimal) : 0 < d.den := Nat.pow_pos (by decide)

theorem value_eq (d : Decimal) :
    d.value = if d.negative then -((d.num : ℚ) / d.den) else (d.num : ℚ) / d.den := by
  have quotient : (d.num : ℚ) / d.den = d.digits * 10 ^ d.exponent := by
    obtain ⟨negative, digits, n | n⟩ := d
    · simp [num, den]
    · simp [num, den, zpow_negSucc, div_eq_mul_inv]
  rw [quotient, value]
  split <;> ring

theorem lt_ten_pow (n : Nat) : n < 10 ^ (Nat.toDigits 10 n).length :=
  (Nat.length_toDigits_le_iff (by decide) (List.length_pos_iff.2 Nat.toDigits_ne_nil)).1
    (Nat.le_refl _)

theorem ten_pow_le {n : Nat} (positive : 0 < n) : 10 ^ ((Nat.toDigits 10 n).length - 1) ≤ n := by
  by_contra less
  have nonempty : 0 < (Nat.toDigits 10 n).length := List.length_pos_iff.2 Nat.toDigits_ne_nil
  rcases Nat.eq_zero_or_pos ((Nat.toDigits 10 n).length - 1) with single | more
  · rw [single] at less
    omega
  · have shorter := (Nat.length_toDigits_le_iff (by decide) more).2 (Nat.lt_of_not_le less)
    omega

/- Less than half the least positive float. -/
theorem num_lt_den {d : Decimal}
    (small : d.digits = 0 ∨ (Nat.toDigits 10 d.digits).length + d.exponent < -330) :
    2 * (unitsInOne * d.num) < d.den := by
  rcases small with zero | small
  · rw [num, zero]
    simpa using d.den_pos
  · have bound : 2 * unitsInOne ≤ 10 ^ 165 * 10 ^ 165 := by decide +kernel
    have whole : d.num = d.digits := by
      have negative : d.exponent.toNat = 0 := by omega
      rw [num, negative]
      exact Nat.mul_one _
    calc 2 * (unitsInOne * d.num) = 2 * unitsInOne * d.digits := by rw [whole, Nat.mul_assoc]
      _ ≤ 10 ^ 165 * 10 ^ 165 * d.digits := Nat.mul_le_mul_right _ bound
      _ < 10 ^ 165 * 10 ^ 165 * 10 ^ (Nat.toDigits 10 d.digits).length :=
          Nat.mul_lt_mul_of_pos_left (lt_ten_pow _) (by decide)
      _ = 10 ^ (165 + (165 + (Nat.toDigits 10 d.digits).length)) := by
          rw [Nat.mul_assoc, ← Nat.pow_add, ← Nat.pow_add]
      _ ≤ d.den := Nat.pow_le_pow_right (by decide) (by omega)

theorem bound_le_num {d : Decimal} (digits : 0 < d.digits)
    (large : 310 < (Nat.toDigits 10 d.digits).length + d.exponent) :
    overflowBound * d.den ≤ d.num := by
  have bound : overflowBound ≤ 10 ^ 155 * 10 ^ 155 := by decide +kernel
  have nonempty : 0 < (Nat.toDigits 10 d.digits).length :=
    List.length_pos_iff.2 Nat.toDigits_ne_nil
  calc overflowBound * d.den ≤ 10 ^ 155 * 10 ^ 155 * 10 ^ (-d.exponent).toNat :=
        Nat.mul_le_mul_right _ bound
    _ = 10 ^ (155 + (155 + (-d.exponent).toNat)) := by
        rw [Nat.mul_assoc, ← Nat.pow_add, ← Nat.pow_add]
    _ ≤ 10 ^ ((Nat.toDigits 10 d.digits).length - 1 + d.exponent.toNat) :=
        Nat.pow_le_pow_right (by decide) (by omega)
    _ = 10 ^ ((Nat.toDigits 10 d.digits).length - 1) * 10 ^ d.exponent.toNat := Nat.pow_add _ _ _
    _ ≤ d.num := Nat.mul_le_mul_right _ (ten_pow_le digits)

/-- The exponents that are settled beforehand would come to the same. -/
theorem toBinary64_eq (d : Decimal) :
    d.toBinary64 = .rounded d.negative (unitsInOne * d.num) d.den := by
  unfold toBinary64
  simp only
  split
  · next small =>
    have vanishes : nearestRank (unitsInOne * d.num) d.den = nearestRank 0 1 := by
      rw [nearestRank_eq_zero (num_lt_den small), nearestRank_eq_zero (by decide)]
    simp only [rounded, vanishes]
  · next digits =>
    split
    · next large =>
      have outside := (infinityRank_le_nearestRank_iff d.num d.den_pos).2
        (bound_le_num (by omega) large)
      rw [rounded, dif_neg (Nat.not_lt_of_le outside)]
    · obtain ⟨negative, digits, n | n⟩ := d
      · simp [num, den]
      · simp [num, den]

theorem abs_value_lt_iff (d : Decimal) :
    |d.value| < overflowBound ↔
      nearestRank (unitsInOne * d.num) d.den < infinityRank := by
  have positive : (0 : ℚ) < d.den := Nat.cast_pos.2 d.den_pos
  have magnitude : |d.value| = (d.num : ℚ) / d.den := by
    have nonneg : (0 : ℚ) ≤ (d.num : ℚ) / d.den :=
      div_nonneg (Nat.cast_nonneg _) (Nat.cast_nonneg _)
    rw [value_eq]
    split
    · rw [abs_neg, abs_of_nonneg nonneg]
    · exact abs_of_nonneg nonneg
  rw [magnitude, div_lt_iff₀ positive, ← Nat.not_le, infinityRank_le_nearestRank_iff _ d.den_pos,
    Nat.not_le]
  exact_mod_cast Iff.rfl

/-- A number below the bound is rounded to the nearest float, and any other is out of range. -/
theorem toBinary64_meets (d : Decimal) :
    (|d.value| < overflowBound → d.toBinary64.Nearest d.value) ∧
      (¬ |d.value| < overflowBound → d.toBinary64 = .infinite d.negative) := by
  rw [abs_value_lt_iff, toBinary64_eq, value_eq]
  constructor
  · exact rounded_nearest d.negative d.den_pos
  · intro outside
    rw [rounded, dif_neg outside]

theorem toBinary64_finite_iff (d : Decimal) :
    (∃ negative rank, d.toBinary64 = .finite negative rank) ↔ |d.value| < overflowBound := by
  obtain ⟨within, beyond⟩ := d.toBinary64_meets
  constructor
  · rintro ⟨negative, rank, finite⟩
    by_contra large
    rw [beyond large] at finite
    cases finite
  · intro small
    obtain ⟨negative, rank, finite, -⟩ := within small
    exact ⟨negative, rank, finite⟩

end Decimal

/-- A whole number as a text is a sign or none, and the digits of its magnitude. -/
theorem Text.exists_sign (n : Int) :
    ∃ sign, Decimal.Sign sign (decide (n < 0)) ∧ ofInt n = sign ++ ofNat n.natAbs := by
  cases n with
  | ofNat m =>
    have positive : ¬ Int.ofNat m < 0 := by simp
    exact ⟨[], decide_eq_false positive ▸ .none, rfl⟩
  | negSucc m =>
    have negative : Int.negSucc m < 0 := Int.negSucc_lt_zero m
    exact ⟨['-'], decide_eq_true negative ▸ .minus, rfl⟩

theorem Text.digits_ofNat (m : Nat) : (ofNat m).Digits := fun _ => isDigit_of_mem_ofNat

/-- So it is a numeral of the number. -/
theorem Decimal.exists_numeral (n : Int) : ∃ d, Numeral (Text.ofInt n) d ∧ d.value = n := by
  obtain ⟨sign, signed, spelled⟩ := Text.exists_sign n
  have body : Unsigned (decide (n < 0)) (Text.ofNat n.natAbs) ⟨decide (n < 0), n.natAbs, 0⟩ := by
    have plain := @Unsigned.spelled (decide (n < 0)) _ _ _ _ _ (Text.digits_ofNat n.natAbs) .none
      (.inl (Text.ofNat_ne_nil _)) .none
    simpa using plain
  refine ⟨⟨decide (n < 0), n.natAbs, 0⟩, ?_, ?_⟩
  · rw [spelled]
    exact Numeral.spelled signed body
  · rcases Int.lt_or_le n 0 with negative | positive
    · have magnitude : (n.natAbs : ℚ) = -n := by
        rw [Nat.cast_natAbs, abs_of_neg negative, Int.cast_neg]
      simp [value, negative, magnitude]
    · have magnitude : (n.natAbs : ℚ) = n := by rw [Nat.cast_natAbs, abs_of_nonneg positive]
      simp [value, Int.not_lt.2 positive, magnitude]

namespace Binary64

theorem signedUnits_of_pos {negative : Bool} {rank : Nat}
    (positive : 0 < signedUnits negative rank) :
    signedUnits negative rank = units rank := by
  unfold signedUnits at positive ⊢
  split at positive
  · omega
  · next not_negative => exact if_neg not_negative

theorem toRat_eq_intCast_iff {negative : Bool} {rank : Nat} {n : Int} :
    toRat negative rank = n ↔ signedUnits negative rank = n * unitsInOne := by
  have one_pos : (0 : ℚ) < unitsInOne := Nat.cast_pos.2 unitsInOne_pos
  rw [toRat, div_eq_iff one_pos.ne']
  exact_mod_cast Iff.rfl

theorem toRat_le_iff {negative negative' : Bool} {rank rank' : Nat} :
    toRat negative rank ≤ toRat negative' rank' ↔
      signedUnits negative rank ≤ signedUnits negative' rank' := by
  have one_pos : (0 : ℚ) < unitsInOne := Nat.cast_pos.2 unitsInOne_pos
  rw [toRat, toRat, div_le_div_iff_of_pos_right one_pos, Int.cast_le]

theorem abs_toRat_lt (negative : Bool) (rank : Fin infinityRank) :
    |toRat negative rank| < overflowBound := by
  have one_pos : (0 : ℚ) < unitsInOne := Nat.cast_pos.2 unitsInOne_pos
  have bounded : units rank < overflowBound * unitsInOne := by
    have last := units_strictMono.monotone (Nat.le_sub_one_of_lt rank.isLt)
    have beyond : units (infinityRank - 1) < units infinityRank := units_strictMono (by decide)
    have middle := units_around_overflowBound
    rw [Nat.mul_comm unitsInOne] at middle
    omega
  have magnitude : |(signedUnits negative rank : ℚ)| = units rank := by
    cases negative <;> simp [signedUnits]
  rw [toRat, abs_div, abs_of_pos one_pos, div_lt_iff₀ one_pos, magnitude]
  exact_mod_cast bounded

/-- The whole number that a float is. -/
theorem toInt?_eq_some_iff {negative : Bool} {rank : Fin infinityRank} {n : Int} :
    (finite negative rank).toInt? = some n ↔ toRat negative rank = n := by
  rw [toRat_eq_intCast_iff, toInt?]
  generalize signedUnits negative rank = numerator
  have positive : (unitsInOne : Int) ≠ 0 := by exact_mod_cast unitsInOne_pos.ne'
  simp only [Option.ite_none_right_eq_some, Option.some.injEq]
  constructor
  · rintro ⟨whole, rfl⟩
    exact (Int.ediv_mul_cancel_of_emod_eq_zero whole).symm
  · rintro rfl
    exact ⟨Int.mul_emod_left _ _, Int.mul_ediv_cancel _ positive⟩

end Binary64

end DrawPile
