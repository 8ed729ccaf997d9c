import DrawPile.Json.Reader
import Mathlib.Data.List.Basic

/-! Strings and whole numbers are read back as they are written, whatever follows the closing
quote, and with anything behind a number that cannot be a part of it. -/
namespace DrawPile.Text

theorem ofCodes?_toNat (t : Text) : ofCodes? (t.map Char.toNat) = some t := by
  have valid : ((t.map Char.toNat).all fun n => decide n.isValidChar) = true := by
    simp only [List.all_map, List.all_eq_true, Function.comp_apply, decide_eq_true_eq]
    exact fun c _ => c.valid
  have same : Char.ofNat ∘ Char.toNat = id := funext Char.ofNat_toNat
  rw [ofCodes?, if_pos valid, List.map_map, same, List.map_id]

theorem not_isHighSurrogate (c : Char) : isHighSurrogate c.toNat = false := by
  have valid : c.toNat.isValidChar := c.valid
  simp only [Nat.isValidChar] at valid
  simp only [isHighSurrogate, Bool.and_eq_false_iff, decide_eq_false_iff_not]
  omega

theorem joinPairs_toNat (done : List Nat) (t : Text) :
    joinPairs done (t.map Char.toNat) = done.reverse ++ t.map Char.toNat := by
  induction t generalizing done with
  | nil => simp [joinPairs]
  | cons c t ih =>
    cases t with
    | nil => simp [joinPairs]
    | cons d t =>
      have rest := ih (c.toNat :: done)
      simp only [List.map_cons] at rest
      simp [joinPairs, not_isHighSurrogate, rest]

theorem ofUnits_toNat (t : Text) : ofUnits (t.map Char.toNat) = t.map Char.toNat :=
  joinPairs_toNat [] t

theorem isDigit_of_mem_ofNat {n : Nat} {c : Char} (member : c ∈ ofNat n) : isDigit c = true := by
  have digit := Nat.isDigit_of_mem_toDigits (by decide) (by decide) member
  simpa [isDigit, Char.isDigit, Char.le_def] using digit

theorem isBlank_of_isDigit {c : Char} (digit : isDigit c = true) :
    isBlank c = false := by
  have range : 48 ≤ c.toNat ∧ c.toNat ≤ 57 := by
    simpa [isDigit, Char.le_def, UInt32.le_iff_toNat_le] using digit
  simp [isBlank, inRanges, blankRanges]
  omega

theorem ne_of_isDigit {d c : Char} (digit : isDigit d = true) (other : isDigit c = false) :
    d ≠ c := by
  rintro rfl
  rw [digit] at other
  cases other

theorem ofNat_ne_nil (n : Nat) : ofNat n ≠ [] := Nat.toDigits_ne_nil

@[simp] theorem toNat_ofNat (n : Nat) : toNat (ofNat n) = n := Nat.ofDigitChars_ten_toDigits

theorem head?_ofNat_ne_zero {n : Nat} (positive : 0 < n) : (ofNat n).head? ≠ some '0' := by
  induction n using Nat.strongRecOn with
  | ind n ih =>
    by_cases small : n < 10
    · rw [ofNat, Nat.toDigits_of_lt_base small]
      simpa using Nat.pos_iff_ne_zero.1 positive
    · have fewer := ih (n / 10) (by omega) (by omega)
      have longer : ofNat n = ofNat (n / 10) ++ [Nat.digitChar (n % 10)] :=
        Nat.toDigits_of_base_le (by decide) (by omega)
      rwa [longer, List.head?_append_of_ne_nil _ (ofNat_ne_nil _)]

/-- A zero in front stands alone. -/
theorem length_ofNat_of_zero {n : Nat} (zero : (ofNat n).head? = some '0') :
    (ofNat n).length ≤ 1 := by
  cases n with
  | zero => decide
  | succ n => exact absurd zero (head?_ofNat_ne_zero n.succ_pos)

theorem ofInt_first (n : Int) :
    ∃ d t, isDigit d = true ∧ (ofInt n = d :: t ∨ ofInt n = '-' :: d :: t) := by
  have first : ∀ m, ∃ d t, isDigit d = true ∧ ofNat m = d :: t := by
    intro m
    obtain ⟨d, t, spelled⟩ := List.exists_cons_of_ne_nil (ofNat_ne_nil m)
    exact ⟨d, t, isDigit_of_mem_ofNat (n := m) (spelled ▸ List.mem_cons_self), spelled⟩
  cases n with
  | ofNat m =>
    obtain ⟨d, t, digit, spelled⟩ := first m
    exact ⟨d, t, digit, .inl spelled⟩
  | negSucc m =>
    obtain ⟨d, t, digit, spelled⟩ := first (m + 1)
    exact ⟨d, t, digit, .inr (congrArg ('-' :: ·) spelled)⟩

theorem splitDigits_append {digits rest : Text} (all : ∀ c ∈ digits, isDigit c = true)
    (stops : ∀ c ∈ rest.head?, isDigit c = false) :
    Decimal.splitDigits (digits ++ rest) = (digits, rest) := by
  have none_more : rest.takeWhile isDigit = [] ∧ rest.dropWhile isDigit = rest := by
    cases rest with
    | nil => exact ⟨rfl, rfl⟩
    | cons c rest => simp [stops c rfl]
  rw [Decimal.splitDigits, List.takeWhile_append_of_pos all, List.dropWhile_append_of_pos all,
    none_more.1, none_more.2, List.append_nil]

end DrawPile.Text

namespace DrawPile.Json

theorem hexValue?_digitChar : ∀ n < 16, hexValue? (Nat.digitChar n) = some n := by decide

theorem hexDigits_of_control : ∀ n < 0x20,
    Text.hexDigits 4 n = ['0', '0', Nat.digitChar (n / 16), Nat.digitChar (n % 16)] := by decide

theorem stringCodes_control {n : Nat} (control : n < 0x20) (codes : List Nat) (t : Text) :
    stringCodes .plain codes (['\\', 'u'] ++ Text.hexDigits 4 n ++ t) =
      stringCodes .plain (n :: codes) t := by
  have high := hexValue?_digitChar (n / 16) (by omega)
  have low := hexValue?_digitChar (n % 16) (by omega)
  have zero : hexValue? '0' = some 0 := rfl
  -- The two leading zeros leave the value at nothing.
  have whole : 16 * (n / 16) + n % 16 = n := Nat.div_add_mod n 16
  rw [hexDigits_of_control n control]
  simp [stringCodes, high, low, zero, whole]

theorem stringCodes_letter {letter : Char} {n : Nat} (known : escapeCode? letter = some n)
    (codes : List Nat) (t : Text) :
    stringCodes .plain codes (['\\', letter] ++ t) = stringCodes .plain (n :: codes) t := by
  have no_digits : letter ≠ 'u' := by
    rintro rfl
    cases known
  simp [stringCodes, no_digits, known]

theorem stringCodes_writeChar (c : Char) (codes : List Nat) (t : Text) :
    stringCodes .plain codes (writeChar c ++ t) = stringCodes .plain (c.toNat :: codes) t := by
  unfold writeChar
  split_ifs with quote backslash feed turn tab back page control
  · subst quote
    exact stringCodes_letter rfl codes t
  · subst backslash
    exact stringCodes_letter rfl codes t
  · subst feed
    exact stringCodes_letter rfl codes t
  · subst turn
    exact stringCodes_letter rfl codes t
  · subst tab
    exact stringCodes_letter rfl codes t
  · have known : escapeCode? 'b' = some c.toNat := by rw [back]; rfl
    exact stringCodes_letter known codes t
  · have known : escapeCode? 'f' = some c.toNat := by rw [page]; rfl
    exact stringCodes_letter known codes t
  · exact stringCodes_control control codes t
  · simp [stringCodes, quote, backslash, control]

theorem stringCodes_flatMap (t : Text) (codes : List Nat) (rest : Text) :
    stringCodes .plain codes (t.flatMap writeChar ++ rest) =
      stringCodes .plain ((t.map Char.toNat).reverse ++ codes) rest := by
  induction t generalizing codes with
  | nil => rfl
  | cons c t ih =>
    rw [List.flatMap_cons, List.append_assoc, stringCodes_writeChar, ih]
    simp

theorem string?_write (t rest : Text) :
    string? (t.flatMap writeChar ++ '"' :: rest) = some (t, rest) := by
  rw [string?, stringCodes_flatMap]
  simp [stringCodes, Text.ofUnits_toNat, Text.ofCodes?_toNat]

/-- What can stand behind a value: nothing, the next item, or the end of what the value is in. -/
def Closes (rest : Text) : Prop :=
  ∀ c ∈ rest.head?, c = ',' ∨ c = ']' ∨ c = '\x7d' ∨ c = '\n'

namespace Closes

theorem not_digit {rest : Text} (closes : Closes rest) :
    ∀ c ∈ rest.head?, Text.isDigit c = false := by
  intro c member
  rcases closes c member with rfl | rfl | rfl | rfl <;> rfl

theorem no_fraction {rest : Text} (closes : Closes rest) : fraction? rest = some (none, rest) := by
  cases rest with
  | nil => rfl
  | cons c rest => rcases closes c rfl with rfl | rfl | rfl | rfl <;> rfl

theorem no_exponent {rest : Text} (closes : Closes rest) :
    exponentPart? rest = some (none, rest) := by
  cases rest with
  | nil => rfl
  | cons c rest => rcases closes c rfl with rfl | rfl | rfl | rfl <;> rfl

end Closes

theorem word?_of_digit {d : Char} (digit : Text.isDigit d = true) (t : Text) :
    word? (d :: t) = none ∧ word? ('-' :: d :: t) = none := by
  have different : ∀ c, Text.isDigit c = false → c ≠ d := fun c other =>
    (Text.ne_of_isDigit digit other).symm
  simp [word?, words, after?, different 'n' rfl, different 't' rfl, different 'f' rfl,
    different 'N' rfl, different 'I' rfl, different '-' rfl]

theorem word?_ofInt (n : Int) (rest : Text) : word? (Text.ofInt n ++ rest) = none := by
  obtain ⟨d, t, digit, spelled | spelled⟩ := Text.ofInt_first n <;> rw [spelled]
  · exact (word?_of_digit digit (t ++ rest)).1
  · exact (word?_of_digit digit (t ++ rest)).2

theorem ofNumeral?_ofNat (negative : Bool) {m : Nat}
    (short : (Text.ofNat m).length ≤ Text.maxDigits) :
    ofNumeral? negative (Text.ofNat m) none none =
      some (.int (if negative then -(m : Int) else m)) := by
  rw [ofNumeral?, if_neg (Nat.not_lt.2 short), Text.toNat_ofNat]

/-- A whole number stands for itself when no digit, point or exponent follows. -/
theorem number?_ofInt {n : Int} (short : (Text.ofNat n.natAbs).length ≤ Text.maxDigits)
    {rest : Text} (closes : Closes rest) :
    number? (Text.ofInt n ++ rest) = some (.int n, rest) := by
  have digits : ∀ m, Decimal.splitDigits (Text.ofNat m ++ rest) = (Text.ofNat m, rest) := fun m =>
    Text.splitDigits_append (fun _ => Text.isDigit_of_mem_ofNat) closes.not_digit
  have allowed : ∀ m, ((Text.ofNat m).isEmpty ||
      ((Text.ofNat m).head? == some '0' && decide (1 < (Text.ofNat m).length))) = false := by
    intro m
    have alone := @Text.length_ofNat_of_zero m
    simpa [Text.ofNat_ne_nil] using alone
  cases n with
  | ofNat m =>
    have spelled : Text.ofInt (.ofNat m) = Text.ofNat m := rfl
    have unsigned : ∀ body, Text.ofNat m ++ rest ≠ '-' :: body := by
      intro body signed
      have first : (Text.ofNat m ++ rest).head? = some '-' := by rw [signed]; rfl
      rw [List.head?_append_of_ne_nil _ (Text.ofNat_ne_nil m)] at first
      have digit := Text.isDigit_of_mem_ofNat (List.mem_of_head? first)
      cases digit
    have read : ofNumeral? false (Text.ofNat m) none none = some (.int m) :=
      ofNumeral?_ofNat false short
    rw [spelled]
    simp only [number?, digits, allowed, closes.no_fraction, closes.no_exponent,
      Option.bind_some, read]
    rfl
  | negSucc m =>
    have spelled : Text.ofInt (.negSucc m) = '-' :: Text.ofNat (m + 1) := rfl
    have read : ofNumeral? true (Text.ofNat (m + 1)) none none = some (.int (.negSucc m)) :=
      ofNumeral?_ofNat true short
    rw [spelled]
    simp only [number?, List.cons_append, digits, allowed, closes.no_fraction, closes.no_exponent,
      Option.bind_some, read]
    rfl

end DrawPile.Json
