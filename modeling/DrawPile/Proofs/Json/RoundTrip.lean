import DrawPile.Proofs.Catalog
import DrawPile.Proofs.Json.Scalar

/-! A value without floats is read back from its text, in every layout. Its whole numbers must be
short enough to be read, and the names in each of its objects distinct. -/
namespace DrawPile.Json

/-- Values that a text gives back. -/
inductive Exact : Json → Prop
  | null : Exact .null
  | bool (value : Bool) : Exact (.bool value)
  | int {n : Int} (short : (Text.ofNat n.natAbs).length ≤ Text.maxDigits) : Exact (.int n)
  | text (t : Text) : Exact (.text t)
  | list {items : List Json} (each : ∀ v ∈ items, Exact v) : Exact (.list items)
  | object {members : Catalog Json} (distinct : members.names.Nodup)
      (each : ∀ m ∈ members, Exact m.2) : Exact (.object members)

variable {indent : Option Nat} {v : Json} {rest : Text}

theorem Exact.writable (exact : Exact v) : v.writable = true := by
  induction exact with
  | int short => exact decide_eq_true short
  | list _ ih => rwa [Json.writable, itemsWritable_eq_all, List.all_eq_true]
  | object _ _ ih => rwa [Json.writable, membersWritable_eq_all, List.all_eq_true]
  | _ => rfl

theorem skipGaps_of_not_gap {c : Char} (solid : isGap c = false) (t : Text) :
    skipGaps (c :: t) = c :: t := by
  simp [skipGaps, solid]

theorem skipGaps_blank (t : Text) : skipGaps (' ' :: t) = skipGaps t := rfl

theorem skipGaps_comma (t : Text) : skipGaps (',' :: t) = ',' :: t := rfl

theorem skipGaps_colon (t : Text) : skipGaps (':' :: t) = ':' :: t := rfl

theorem skipGaps_lineBreak (indent : Option Nat) (level : Nat) (rest : Text) :
    skipGaps (lineBreak indent level rest) = skipGaps rest := by
  cases indent with
  | none => rfl
  | some width =>
    have spaces : ∀ c ∈ List.replicate (width * level) ' ', isGap c = true := by
      intro c member
      rw [List.eq_of_mem_replicate member]
      rfl
    have newline : isGap '\n' = true := rfl
    rw [lineBreak, skipGaps, List.dropWhile_cons_of_pos newline,
      List.dropWhile_append_of_pos spaces, skipGaps]

theorem separator_eq (indent : Option Nat) (level : Nat) (rest : Text) :
    ∃ gap, separator indent level rest = ',' :: gap ∧ skipGaps gap = skipGaps rest := by
  cases indent with
  | none => exact ⟨' ' :: rest, rfl, rfl⟩
  | some width => exact ⟨_, rfl, skipGaps_lineBreak (some width) level rest⟩

theorem length_lineBreak (indent : Option Nat) (level : Nat) (rest : Text) :
    rest.length ≤ (lineBreak indent level rest).length := by
  cases indent with
  | none => exact Nat.le_refl _
  | some width =>
    simp only [lineBreak, List.length_cons, List.length_append]
    omega

theorem length_separator (indent : Option Nat) (level : Nat) (rest : Text) :
    rest.length < (separator indent level rest).length := by
  cases indent with
  | none =>
    simp only [separator, List.length_cons]
    omega
  | some width =>
    have line := length_lineBreak (some width) level rest
    simp only [separator, List.length_cons]
    omega

theorem length_append_lt {t : Text} (filled : t ≠ []) (rest : Text) :
    rest.length < (t ++ rest).length := by
  have some_length := List.length_pos_iff.2 filled
  rw [List.length_append]
  omega

theorem length_writeText (t rest : Text) : rest.length < (writeText t rest).length := by
  simp only [writeText, List.length_cons, List.length_append]
  omega

/- A member of an object, in front of what follows it. -/
def memberText (indent : Option Nat) (level : Nat) (name : Text) (v : Json) (rest : Text) : Text :=
  writeText name (':' :: ' ' :: writeAt indent level v rest)

theorem writeMembers_cons (indent : Option Nat) (level : Nat) (m : Text × Json)
    (ms : Catalog Json) (rest : Text) :
    writeMembers indent level (m :: ms) rest = separator indent level
      (memberText indent level m.1 m.2 (writeMembers indent level ms rest)) := by
  rw [writeMembers, memberText]

theorem writeAt_object_cons (indent : Option Nat) (level : Nat) (m : Text × Json)
    (ms : Catalog Json) (rest : Text) :
    writeAt indent level (.object (m :: ms)) rest =
      '\x7b' :: lineBreak indent (level + 1) (memberText indent (level + 1) m.1 m.2
        (writeMembers indent (level + 1) ms (lineBreak indent level ('\x7d' :: rest)))) := by
  rw [writeAt, memberText]

theorem length_memberText (indent : Option Nat) (level : Nat) (name : Text) (v : Json)
    (rest : Text) :
    (writeAt indent level v rest).length < (memberText indent level name v rest).length := by
  have key := length_writeText name (':' :: ' ' :: writeAt indent level v rest)
  simp only [List.length_cons] at key
  rw [memberText]
  omega

/-- A value begins with no blank, and with no bracket that would close what it is in. -/
theorem Exact.first (exact : Exact v) (indent : Option Nat) (level : Nat) (rest : Text) :
    ∃ c t, writeAt indent level v rest = c :: t ∧ isGap c = false ∧ c ≠ ']' := by
  cases exact with
  | null => exact ⟨_, _, rfl, rfl, by decide⟩
  | bool value => cases value <;> exact ⟨_, _, rfl, rfl, by decide⟩
  | text t => exact ⟨_, _, rfl, rfl, by decide⟩
  | @list items _ => cases items <;> exact ⟨_, _, rfl, rfl, by decide⟩
  | @object members _ _ => cases members <;> exact ⟨_, _, rfl, rfl, by decide⟩
  | @int n _ =>
    obtain ⟨d, t, digit, spelled | spelled⟩ := Text.ofInt_first n <;> rw [writeAt, spelled]
    · have different := fun c => Text.ne_of_isDigit (c := c) digit
      refine ⟨d, t ++ rest, rfl, ?_, different ']' rfl⟩
      simp [isGap, different ' ' rfl, different '\t' rfl, different '\n' rfl, different '\r' rfl]
    · exact ⟨_, _, rfl, rfl, by decide⟩

theorem length_writeItems {vs : List Json}
    (longer : ∀ v ∈ vs, ∀ level rest, rest.length < (writeAt indent level v rest).length)
    (level : Nat) (rest : Text) : rest.length ≤ (writeItems indent level vs rest).length := by
  induction vs with
  | nil => exact Nat.le_refl _
  | cons v vs ih =>
    have others := ih fun w member => longer w (List.mem_cons_of_mem v member)
    have item := longer v List.mem_cons_self level (writeItems indent level vs rest)
    have mark := length_separator indent level
      (writeAt indent level v (writeItems indent level vs rest))
    rw [writeItems]
    omega

theorem length_writeMembers {ms : Catalog Json}
    (longer : ∀ m ∈ ms, ∀ level rest, rest.length < (writeAt indent level m.2 rest).length)
    (level : Nat) (rest : Text) : rest.length ≤ (writeMembers indent level ms rest).length := by
  induction ms with
  | nil => exact Nat.le_refl _
  | cons m ms ih =>
    have others := ih fun w member => longer w (List.mem_cons_of_mem _ member)
    have value := longer m List.mem_cons_self level (writeMembers indent level ms rest)
    have whole := length_memberText indent level m.1 m.2 (writeMembers indent level ms rest)
    have mark := length_separator indent level
      (memberText indent level m.1 m.2 (writeMembers indent level ms rest))
    rw [writeMembers_cons]
    omega

theorem Exact.longer (exact : Exact v) (indent : Option Nat) (level : Nat) (rest : Text) :
    rest.length < (writeAt indent level v rest).length := by
  induction exact generalizing level rest with
  | null => exact length_append_lt (by decide) rest
  | bool value => cases value <;> exact length_append_lt (by decide) rest
  | text t => simpa only [writeAt] using length_writeText t rest
  | @int n _ =>
    have digits : Text.ofInt n ≠ [] := by
      obtain ⟨d, t, -, spelled | spelled⟩ := Text.ofInt_first n <;> simp [spelled]
    simpa only [writeAt] using length_append_lt digits rest
  | @list items _ ih =>
    cases items with
    | nil => exact length_append_lt (List.cons_ne_nil '[' [']']) rest
    | cons v vs =>
      have close := length_lineBreak indent level (']' :: rest)
      have others := length_writeItems
        (fun w member => ih w (List.mem_cons_of_mem v member)) (level + 1)
        (lineBreak indent level (']' :: rest))
      have item := ih v List.mem_cons_self (level + 1)
        (writeItems indent (level + 1) vs (lineBreak indent level (']' :: rest)))
      have line := length_lineBreak indent (level + 1) (writeAt indent (level + 1) v
        (writeItems indent (level + 1) vs (lineBreak indent level (']' :: rest))))
      simp only [writeAt, List.length_cons] at *
      omega
  | @object members _ _ ih =>
    cases members with
    | nil => exact length_append_lt (List.cons_ne_nil '\x7b' ['\x7d']) rest
    | cons m ms =>
      have close := length_lineBreak indent level ('\x7d' :: rest)
      have others := length_writeMembers
        (fun w member => ih w (List.mem_cons_of_mem _ member)) (level + 1)
        (lineBreak indent level ('\x7d' :: rest))
      have value := ih m List.mem_cons_self (level + 1)
        (writeMembers indent (level + 1) ms (lineBreak indent level ('\x7d' :: rest)))
      have whole := length_memberText indent (level + 1) m.1 m.2
        (writeMembers indent (level + 1) ms (lineBreak indent level ('\x7d' :: rest)))
      have line := length_lineBreak indent (level + 1) (memberText indent (level + 1) m.1 m.2
        (writeMembers indent (level + 1) ms (lineBreak indent level ('\x7d' :: rest))))
      rw [writeAt_object_cons]
      simp only [List.length_cons] at *
      omega

theorem Exact.skipGaps_write (exact : Exact v) (indent : Option Nat) (level : Nat) (rest : Text) :
    skipGaps (writeAt indent level v rest) = writeAt indent level v rest := by
  obtain ⟨c, t, written, solid, -⟩ := exact.first indent level rest
  rw [written, skipGaps_of_not_gap solid]

theorem Closes.lineBreak (closes : Closes rest) (indent : Option Nat) (level : Nat) :
    Closes (lineBreak indent level rest) := by
  cases indent with
  | none => exact closes
  | some width =>
    rintro c ⟨⟩
    exact .inr (.inr (.inr rfl))

theorem closes_separator (indent : Option Nat) (level : Nat) (rest : Text) :
    Closes (separator indent level rest) := by
  obtain ⟨gap, comma, -⟩ := separator_eq indent level rest
  rw [comma]
  rintro c ⟨⟩
  exact .inl rfl

theorem Closes.writeItems (closes : Closes rest) (indent : Option Nat) (level : Nat)
    (vs : List Json) : Closes (writeItems indent level vs rest) := by
  cases vs with
  | nil => exact closes
  | cons v vs =>
    rw [Json.writeItems]
    exact closes_separator _ _ _

theorem Closes.writeMembers (closes : Closes rest) (indent : Option Nat) (level : Nat)
    (ms : Catalog Json) : Closes (writeMembers indent level ms rest) := by
  cases ms with
  | nil => exact closes
  | cons m ms =>
    rw [writeMembers_cons]
    exact closes_separator _ _ _

/-- The reader finds the value at the start of its text, given calls twice as deep as that is
long. -/
def ReadsBack (v : Json) : Prop :=
  ∀ indent level rest depth, Closes rest → 2 * (writeAt indent level v rest).length ≤ depth →
    value? depth (writeAt indent level v rest) = some (v, rest)

theorem items?_write {level : Nat} {vs : List Json} (exact : ∀ w ∈ v :: vs, Exact w)
    (reads : ∀ w ∈ v :: vs, ReadsBack w) {tail : Text} (closes : Closes tail)
    (ends : skipGaps tail = ']' :: rest) {depth : Nat}
    (enough : 2 * (writeAt indent level v (writeItems indent level vs tail)).length < depth) :
    items? depth (writeAt indent level v (writeItems indent level vs tail)) =
      some (v :: vs, rest) := by
  -- Reading one item takes one call of the depth, and the item takes at least one character.
  induction vs generalizing v depth with
  | nil =>
    obtain ⟨depth, rfl⟩ : ∃ d, depth = d + 1 := ⟨depth - 1, by omega⟩
    have read := reads v List.mem_cons_self indent level tail depth closes
      (by rw [writeItems] at enough; omega)
    simp only [items?, writeItems, read, ends]
  | cons w ws ih =>
    obtain ⟨depth, rfl⟩ : ∃ d, depth = d + 1 := ⟨depth - 1, by omega⟩
    rw [writeItems] at enough ⊢
    have shorter := (exact v List.mem_cons_self).longer indent level
      (separator indent level (writeAt indent level w (writeItems indent level ws tail)))
    have mark := length_separator indent level
      (writeAt indent level w (writeItems indent level ws tail))
    have read := reads v List.mem_cons_self indent level _ depth
      (closes_separator indent level (writeAt indent level w (writeItems indent level ws tail)))
      (by omega)
    have others : items? depth (writeAt indent level w (writeItems indent level ws tail)) =
        some (w :: ws, rest) :=
      ih (fun u member => exact u (List.mem_cons_of_mem v member))
        (fun u member => reads u (List.mem_cons_of_mem v member)) (by omega)
    have first := (exact w (List.mem_cons_of_mem v List.mem_cons_self)).skipGaps_write indent level
      (writeItems indent level ws tail)
    obtain ⟨gap, comma, gaps⟩ := separator_eq indent level
      (writeAt indent level w (writeItems indent level ws tail))
    rw [items?, read, comma]
    simp only [skipGaps_comma, gaps, first, others, Option.map_some]

theorem skipGaps_memberText (indent : Option Nat) (level : Nat) (name : Text) (v : Json)
    (rest : Text) :
    skipGaps (memberText indent level name v rest) = memberText indent level name v rest := rfl

theorem members?_last {level : Nat} (exact : Exact v) (name : Text) {after : Text} {depth : Nat}
    (read : value? depth (writeAt indent level v after) = some (v, after))
    (ends : skipGaps after = '\x7d' :: rest) :
    members? (depth + 1) (memberText indent level name v after) = some ([(name, v)], rest) := by
  have first := exact.skipGaps_write indent level after
  simp only [memberText, writeText, members?, string?_write, skipGaps_colon, skipGaps_blank, first,
    read, ends]

theorem members?_more {level : Nat} (exact : Exact v) (name : Text) {after gap : Text} {depth : Nat}
    (read : value? depth (writeAt indent level v after) = some (v, after))
    (comma : skipGaps after = ',' :: gap) :
    members? (depth + 1) (memberText indent level name v after) =
      (members? depth (skipGaps gap)).map fun (ms, t) => ((name, v) :: ms, t) := by
  have first := exact.skipGaps_write indent level after
  simp only [memberText, writeText, members?, string?_write, skipGaps_colon, skipGaps_blank, first,
    read, comma]

theorem members?_write {level : Nat} {m : Text × Json} {ms : Catalog Json}
    (exact : ∀ k ∈ m :: ms, Exact k.2) (reads : ∀ k ∈ m :: ms, ReadsBack k.2) {tail : Text}
    (closes : Closes tail) (ends : skipGaps tail = '\x7d' :: rest) {depth : Nat}
    (enough : 2 * (memberText indent level m.1 m.2
      (writeMembers indent level ms tail)).length ≤ depth) :
    members? depth (memberText indent level m.1 m.2 (writeMembers indent level ms tail)) =
      some (m :: ms, rest) := by
  -- As for items; the name takes the character that the call before needs.
  induction ms generalizing m depth with
  | nil =>
    have whole := length_memberText indent level m.1 m.2 tail
    rw [writeMembers] at enough ⊢
    obtain ⟨depth, rfl⟩ : ∃ d, depth = d + 1 := ⟨depth - 1, by omega⟩
    have read := reads m List.mem_cons_self indent level tail depth closes (by omega)
    exact members?_last (exact m List.mem_cons_self) m.1 read ends
  | cons k ks ih =>
    have whole := length_memberText indent level m.1 m.2 (writeMembers indent level (k :: ks) tail)
    obtain ⟨depth, rfl⟩ : ∃ d, depth = d + 1 := ⟨depth - 1, by omega⟩
    have read := reads m List.mem_cons_self indent level _ depth
      (closes.writeMembers indent level (k :: ks)) (by omega)
    have shorter := (exact m List.mem_cons_self).longer indent level
      (writeMembers indent level (k :: ks) tail)
    rw [writeMembers_cons] at read shorter whole enough ⊢
    have mark := length_separator indent level
      (memberText indent level k.1 k.2 (writeMembers indent level ks tail))
    have others : members? depth (memberText indent level k.1 k.2
        (writeMembers indent level ks tail)) = some (k :: ks, rest) :=
      ih (fun j member => exact j (List.mem_cons_of_mem m member))
        (fun j member => reads j (List.mem_cons_of_mem m member)) (by omega)
    obtain ⟨gap, comma, gaps⟩ := separator_eq indent level
      (memberText indent level k.1 k.2 (writeMembers indent level ks tail))
    have marked : skipGaps (separator indent level (memberText indent level k.1 k.2
        (writeMembers indent level ks tail))) = ',' :: gap := by rw [comma, skipGaps_comma]
    rw [members?_more (exact m List.mem_cons_self) m.1 read marked, gaps, skipGaps_memberText,
      others]
    rfl

theorem value?_list {before after : Text} (starts : skipGaps before = after)
    (item : after.head? ≠ some ']') (depth : Nat) :
    value? (depth + 1) ('[' :: before) = (items? depth after).map fun (vs, t) => (.list vs, t) := by
  cases after with
  | nil => simp [value?, starts]
  | cons c t =>
    have open_still : c ≠ ']' := by simpa using item
    simp [value?, starts, open_still]

theorem value?_object {before after : Text} (starts : skipGaps before = after)
    (member : after.head? ≠ some '\x7d') (depth : Nat) :
    value? (depth + 1) ('\x7b' :: before) =
      (members? depth after).map fun (ms, t) => (.object (Catalog.ofList ms), t) := by
  cases after with
  | nil => simp [value?, starts]
  | cons c t =>
    have open_still : c ≠ '\x7d' := by simpa using member
    simp [value?, starts, open_still]

theorem value?_other {c : Char} (quote : c ≠ '"') (bracket : c ≠ '[') (brace : c ≠ '\x7b')
    (depth : Nat) (t : Text) :
    value? (depth + 1) (c :: t) = (word? (c :: t)).or (number? (c :: t)) := by
  simp [value?, quote, bracket, brace]

theorem value?_ofInt {n : Int} (short : (Text.ofNat n.natAbs).length ≤ Text.maxDigits)
    (closes : Closes rest) (depth : Nat) :
    value? (depth + 1) (Text.ofInt n ++ rest) = some (.int n, rest) := by
  have word := word?_ofInt n rest
  have number := number?_ofInt short closes
  obtain ⟨d, t, digit, spelled | spelled⟩ := Text.ofInt_first n <;>
    rw [spelled, List.cons_append] at word number ⊢
  · have different := fun c => Text.ne_of_isDigit (c := c) digit
    rw [value?_other (different '"' rfl) (different '[' rfl) (different '\x7b' rfl), word, number]
    rfl
  · rw [value?_other (by decide) (by decide) (by decide), word, number]
    rfl

theorem readsBack_of (exact : Exact v)
    (step : ∀ indent level rest depth, Closes rest →
      2 * (writeAt indent level v rest).length ≤ depth + 1 →
        value? (depth + 1) (writeAt indent level v rest) = some (v, rest)) : ReadsBack v := by
  intro indent level rest depth closes enough
  have room := exact.longer indent level rest
  obtain ⟨depth, rfl⟩ : ∃ d, depth = d + 1 := ⟨depth - 1, by omega⟩
  exact step indent level rest depth closes enough

theorem readsBack_list {items : List Json} (exact : ∀ w ∈ items, Exact w)
    (reads : ∀ w ∈ items, ReadsBack w) : ReadsBack (.list items) := by
  refine readsBack_of (.list exact) fun indent level rest depth closes enough => ?_
  cases items with
  | nil => rfl
  | cons v vs =>
    have bracket : Closes (']' :: rest) := by
      rintro c ⟨⟩
      exact .inr (.inl rfl)
    have closes_tail := bracket.lineBreak indent level
    have ends : skipGaps (lineBreak indent level (']' :: rest)) = ']' :: rest :=
      skipGaps_lineBreak ..
    rw [writeAt] at enough ⊢
    generalize lineBreak indent level (']' :: rest) = tail at closes_tail ends enough ⊢
    have exact_v := exact v List.mem_cons_self
    have starts := (skipGaps_lineBreak indent (level + 1) _).trans
      (exact_v.skipGaps_write indent (level + 1) (writeItems indent (level + 1) vs tail))
    have item : (writeAt indent (level + 1) v
        (writeItems indent (level + 1) vs tail)).head? ≠ some ']' := by
      obtain ⟨c, t, written, -, other⟩ := exact_v.first indent (level + 1)
        (writeItems indent (level + 1) vs tail)
      simpa [written] using other
    have line := length_lineBreak indent (level + 1)
      (writeAt indent (level + 1) v (writeItems indent (level + 1) vs tail))
    rw [List.length_cons] at enough
    rw [value?_list starts item, items?_write exact reads closes_tail ends (by omega)]
    rfl

theorem readsBack_object {members : Catalog Json} (distinct : members.names.Nodup)
    (exact : ∀ m ∈ members, Exact m.2) (reads : ∀ m ∈ members, ReadsBack m.2) :
    ReadsBack (.object members) := by
  refine readsBack_of (.object distinct exact) fun indent level rest depth closes enough => ?_
  cases members with
  | nil => rfl
  | cons m ms =>
    have brace : Closes ('\x7d' :: rest) := by
      rintro c ⟨⟩
      exact .inr (.inr (.inl rfl))
    have closes_tail := brace.lineBreak indent level
    have ends : skipGaps (lineBreak indent level ('\x7d' :: rest)) = '\x7d' :: rest :=
      skipGaps_lineBreak ..
    rw [writeAt_object_cons] at enough ⊢
    generalize lineBreak indent level ('\x7d' :: rest) = tail at closes_tail ends enough ⊢
    have starts := (skipGaps_lineBreak indent (level + 1) _).trans
      (skipGaps_memberText indent (level + 1) m.1 m.2 (writeMembers indent (level + 1) ms tail))
    have line := length_lineBreak indent (level + 1)
      (memberText indent (level + 1) m.1 m.2 (writeMembers indent (level + 1) ms tail))
    rw [List.length_cons] at enough
    rw [value?_object starts (by simp [memberText, writeText]),
      members?_write exact reads closes_tail ends (by omega)]
    simp [Catalog.ofList_of_nodup distinct]

/-- The reader gives back every value that has a text of its own. -/
theorem Exact.readsBack (exact : Exact v) : ReadsBack v := by
  induction exact with
  | null => exact readsBack_of .null fun _ _ _ _ _ _ => rfl
  | bool value =>
    refine readsBack_of (.bool value) fun indent level rest depth _ _ => ?_
    cases value <;> rfl
  | text t =>
    refine readsBack_of (.text t) fun indent level rest depth _ _ => ?_
    simp [writeAt, writeText, value?, string?_write]
  | int short =>
    refine readsBack_of (.int short) fun indent level rest depth closes _ => ?_
    rw [writeAt]
    exact value?_ofInt short closes depth
  | list each ih => exact readsBack_list each ih
  | object distinct each ih => exact readsBack_object distinct each ih

/-- A text is read back as the value it was written from, whatever the layout. -/
theorem parse?_write (exact : Exact v) (indent : Option Nat) :
    parse? (v.write indent) = some v := by
  have solid := exact.skipGaps_write indent 0 []
  have read := exact.readsBack indent 0 [] (2 * (v.write indent).length + 2) (by rintro c ⟨⟩)
    (by rw [write]; omega)
  rw [parse?, write, solid]
  rw [write] at read
  rw [read]
  rfl

end DrawPile.Json
