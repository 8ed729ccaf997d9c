import DrawPile.Proofs.Catalog.Merge
import DrawPile.Proofs.Json.Scalar
import Mathlib.Data.Nat.Digits.Defs

/-! What a reader can give. Words and numbers are scalars; an object that is read has each of its
names once, however often the text has it; and no integer in what is read is too long to be written.
A text with no surrogate alone in it is refused for its form only. -/
namespace DrawPile

namespace Text

theorem ofDigitChars_lt {digits : Text} (all : ∀ c ∈ digits, isDigit c = true) (start : Nat) :
    Nat.ofDigitChars 10 digits start < (start + 1) * 10 ^ digits.length := by
  induction digits generalizing start with
  | nil => simp [Nat.ofDigitChars]
  | cons c digits ih =>
    have range : 48 ≤ c.toNat ∧ c.toNat ≤ 57 := by
      simpa [isDigit, Char.le_def, UInt32.le_iff_toNat_le] using all c List.mem_cons_self
    have value : c.toNat - '0'.toNat ≤ 9 := Nat.sub_le_of_le_add range.2
    have rest := ih (fun d member => all d (List.mem_cons_of_mem c member))
      (10 * start + (c.toNat - '0'.toNat))
    have bound : 10 * start + (c.toNat - '0'.toNat) + 1 ≤ (start + 1) * 10 := by omega
    calc Nat.ofDigitChars 10 (c :: digits) start
        = Nat.ofDigitChars 10 digits (10 * start + (c.toNat - '0'.toNat)) := rfl
      _ < (10 * start + (c.toNat - '0'.toNat) + 1) * 10 ^ digits.length := rest
      _ ≤ (start + 1) * 10 * 10 ^ digits.length := Nat.mul_le_mul_right _ bound
      _ = (start + 1) * 10 ^ (c :: digits).length := by
        rw [List.length_cons, Nat.pow_succ', Nat.mul_assoc]

/-- A number that few enough digits spell can be written. -/
theorem isWritable_toNat {digits : Text} (all : ∀ c ∈ digits, isDigit c = true) (any : digits ≠ [])
    (short : digits.length ≤ maxDigits) (negative : Bool) :
    isWritable (if negative then -(toNat digits : Int) else toNat digits) = true := by
  have small : toNat digits < 10 ^ digits.length := by
    simpa [toNat] using ofDigitChars_lt all 0
  have fewer : (ofNat (toNat digits)).length ≤ digits.length :=
    (Nat.length_toDigits_le_iff (by decide) (List.length_pos_iff.2 any)).2 small
  have size : (if negative then -(toNat digits : Int) else toNat digits).natAbs = toNat digits := by
    cases negative <;> simp
  rw [isWritable, size]
  exact decide_eq_true (fewer.trans short)

end Text

namespace Json
variable {v : Json} {t : Text}

/-- The values of one word or number. -/
inductive Scalar : Json → Prop
  | null : Scalar .null
  | bool (value : Bool) : Scalar (.bool value)
  | int {n : Int} (short : Text.isWritable n = true) : Scalar (.int n)
  | float (x : Binary64) : Scalar (.float x)

theorem Scalar.writable (scalar : Scalar v) : v.writable = true := by
  cases scalar with
  | int short => exact short
  | _ => rfl

theorem ofNumeral?_scalar {negative : Bool} {whole : Text} {fraction : Option Text}
    {exponent : Option Int} (all : ∀ c ∈ whole, Text.isDigit c = true) (any : whole ≠ [])
    (found : ofNumeral? negative whole fraction exponent = some v) : Scalar v := by
  unfold ofNumeral? at found
  split at found
  · split at found
    · cases found
    · next short =>
      cases found
      exact .int (Text.isWritable_toNat all any (Nat.le_of_not_lt short) negative)
  · cases found
    exact .float _

theorem number?_scalar {rest : Text} (found : number? t = some (v, rest)) : Scalar v := by
  simp only [number?, Option.ite_none_left_eq_some, Option.bind_eq_some_iff,
    Option.map_eq_some_iff] at found
  obtain ⟨allowed, _, -, _, -, _, scalar, same⟩ := found
  cases same
  refine ofNumeral?_scalar ?_ (fun none_there => allowed (by simp [none_there])) scalar
  exact List.all_eq_true.1 List.all_takeWhile

theorem word?_scalar {rest : Text} (found : word? t = some (v, rest)) : Scalar v := by
  obtain ⟨w, member, found⟩ := List.exists_of_findSome?_eq_some found
  obtain ⟨_, -, same⟩ := Option.map_eq_some_iff.1 found
  cases same
  simp only [words, List.mem_cons, List.not_mem_nil, or_false] at member
  rcases member with rfl | rfl | rfl | rfl | rfl | rfl <;> constructor

/-- What a reader gives, by what it has read before. -/
inductive Read (depth : Nat) : Json → Prop
  | scalar {v : Json} (scalar : Scalar v) : Read depth v
  | text (t : Text) : Read depth (.text t)
  | list {items : List Json}
      (each : items = [] ∨ ∃ t rest, items? depth t = some (items, rest)) : Read depth (.list items)
  | object {entries : List (Text × Json)}
      (each : entries = [] ∨ ∃ t rest, members? depth t = some (entries, rest)) :
      Read depth (.object (Catalog.ofList entries))

theorem value?_read {rest : Text} {depth : Nat} (found : value? (depth + 1) t = some (v, rest)) :
    Read depth v := by
  cases t with
  | nil => simp [value?] at found
  | cons c t =>
    rw [value?] at found
    -- By the first character: a quote, a bracket, a brace, or that of a word or number.
    split at found
    · obtain ⟨⟨s, _⟩, -, same⟩ := Option.map_eq_some_iff.1 found
      cases same
      exact .text s
    split at found
    · split at found
      · cases found
        exact .list (.inl rfl)
      · obtain ⟨⟨items, _⟩, read, same⟩ := Option.map_eq_some_iff.1 found
        cases same
        exact .list (.inr ⟨_, _, read⟩)
    split at found
    · split at found
      · cases found
        exact .object (.inl rfl)
      · obtain ⟨⟨entries, _⟩, read, same⟩ := Option.map_eq_some_iff.1 found
        cases same
        exact .object (.inr ⟨_, _, read⟩)
    · rcases Option.or_eq_some_iff.1 found with word | ⟨-, number⟩
      · exact .scalar (word?_scalar word)
      · exact .scalar (number?_scalar number)

theorem items?_read {vs : List Json} {rest : Text} {depth : Nat}
    (found : items? (depth + 1) t = some (vs, rest)) :
    ∃ v others, vs = v :: others ∧ (∃ t rest, value? depth t = some (v, rest)) ∧
      (others = [] ∨ ∃ t rest, items? depth t = some (others, rest)) := by
  rw [items?] at found
  split at found
  · cases found
  · next read =>
    split at found
    · cases found
      exact ⟨_, [], rfl, ⟨_, _, read⟩, .inl rfl⟩
    · obtain ⟨⟨others, _⟩, more, same⟩ := Option.map_eq_some_iff.1 found
      cases same
      exact ⟨_, others, rfl, ⟨_, _, read⟩, .inr ⟨_, _, more⟩⟩
    · cases found

theorem members?_read {ms : List (Text × Json)} {rest : Text} {depth : Nat}
    (found : members? (depth + 1) t = some (ms, rest)) :
    ∃ name v others, ms = (name, v) :: others ∧ (∃ t rest, value? depth t = some (v, rest)) ∧
      (others = [] ∨ ∃ t rest, members? depth t = some (others, rest)) := by
  unfold members? at found
  -- A quote, a name and a colon come first; only then is a value read.
  split at found
  case h_2 => cases found
  split at found
  case h_1 => cases found
  split at found
  case h_2 => cases found
  split at found
  · cases found
  · next read =>
    split at found
    · cases found
      exact ⟨_, _, [], rfl, ⟨_, _, read⟩, .inl rfl⟩
    · obtain ⟨⟨others, _⟩, more, same⟩ := Option.map_eq_some_iff.1 found
      cases same
      exact ⟨_, _, others, rfl, ⟨_, _, read⟩, .inr ⟨_, _, more⟩⟩
    · cases found

theorem names_of_value? {rest : Text} {members : Catalog Json} {depth : Nat}
    (found : value? depth t = some (.object members, rest)) :
    members.names.Nodup := by
  cases depth with
  | zero => simp [value?] at found
  | succ depth =>
    cases value?_read found with
    | scalar scalar => cases scalar
    | object => exact Catalog.nodup_ofList _

theorem writable_ofList {entries : List (Text × Json)} (each : membersWritable entries = true) :
    (Json.object (Catalog.ofList entries)).writable = true := by
  rw [membersWritable_eq_all, List.all_eq_true] at each
  rw [writable, membersWritable_eq_all, List.all_eq_true]
  exact fun m member => each m (Catalog.mem_of_mem_ofList member)

/- One call of the depth is one level of the induction. -/
theorem read_writable (depth : Nat) :
    (∀ {t v rest}, value? depth t = some (v, rest) → v.writable = true) ∧
      (∀ {t vs rest}, items? depth t = some (vs, rest) → itemsWritable vs = true) ∧
      ∀ {t ms rest}, members? depth t = some (ms, rest) → membersWritable ms = true := by
  induction depth with
  | zero => simp [value?, items?, members?]
  | succ depth ih =>
    obtain ⟨value, items, entries⟩ := ih
    refine ⟨fun found => ?_, fun found => ?_, fun found => ?_⟩
    · cases value?_read found with
      | scalar scalar => exact scalar.writable
      | text => rfl
      | list each =>
        rcases each with rfl | ⟨_, _, read⟩
        · rfl
        · exact items read
      | object each =>
        rcases each with rfl | ⟨_, _, read⟩
        · rfl
        · exact writable_ofList (entries read)
    · obtain ⟨v, others, rfl, ⟨_, _, read⟩, more⟩ := items?_read found
      rw [itemsWritable, value read, Bool.true_and]
      rcases more with rfl | ⟨_, _, more⟩
      · rfl
      · exact items more
    · obtain ⟨name, v, others, rfl, ⟨_, _, read⟩, more⟩ := members?_read found
      rw [membersWritable, value read, Bool.true_and]
      rcases more with rfl | ⟨_, _, more⟩
      · rfl
      · exact entries more

theorem parse?_eq_some (found : parse? t = some v) :
    ∃ depth t rest, value? depth t = some (v, rest) := by
  unfold parse? at found
  split at found
  · next read =>
    split at found
    · cases found
      exact ⟨_, _, _, read⟩
    · cases found
  · cases found

theorem parseBytes?_eq_some {bytes : List UInt8} (found : parseBytes? bytes = some v) :
    ∃ t, parse? t = some v := by
  obtain ⟨_, -, found⟩ := Option.bind_eq_some_iff.1 found
  obtain ⟨t, -, parsed⟩ := Option.bind_eq_some_iff.1 found
  exact ⟨t, parsed⟩

theorem names_of_parse? {members : Catalog Json} (found : parse? t = some (.object members)) :
    members.names.Nodup := by
  obtain ⟨depth, u, rest, read⟩ := parse?_eq_some found
  exact names_of_value? read

theorem writable_of_parse? (found : parse? t = some v) : v.writable = true := by
  obtain ⟨depth, u, rest, read⟩ := parse?_eq_some found
  exact (read_writable depth).1 read

/-- Whether a string, from after its opening quote, has a surrogate alone in it. -/
def hasLone (t : Text) : Bool :=
  (stringCodes .plain [] t).any fun s => (Text.ofCodes? (Text.ofUnits s.1)).isNone

/-- Whether a string in a text has a surrogate alone in it. -/
def spellsLone : Text → Bool
  | [] => false
  | c :: t => c == '"' && hasLone t || spellsLone t

def bytesSpellLone (bytes : List UInt8) : Bool :=
  (Text.codes? bytes).any fun codes => (Text.ofCodes? codes).elim true spellsLone

/-- In a text with no surrogate alone, every string that is well formed is read. -/
theorem string?_of_no_lone {rest front : Text} (none_alone : spellsLone (front ++ '"' :: t) = false)
    {codes : List Nat} (formed : stringCodes .plain [] t = some (codes, rest)) :
    ∃ s, string? t = some (s, rest) := by
  induction front with
  | nil =>
    simp only [List.nil_append, spellsLone, hasLone, formed, Option.any_some, beq_self_eq_true,
      Bool.true_and, Bool.or_eq_false_iff, Option.isNone_eq_false_iff, Option.isSome_iff_exists]
      at none_alone
    obtain ⟨⟨s, paired⟩, -⟩ := none_alone
    exact ⟨s, by simp [string?, formed, paired]⟩
  | cons c front ih =>
    simp only [List.cons_append, spellsLone, Bool.or_eq_false_iff] at none_alone
    exact ih none_alone.2

end Json

end DrawPile
