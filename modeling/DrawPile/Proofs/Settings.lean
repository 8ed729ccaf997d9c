import DrawPile.Proofs.Settings.Numeral
import DrawPile.Reference.Resolution
import DrawPile.Settings

/-! Valid settings. A value is accepted for a field exactly if it fits what the field holds: a limit is
set to the whole number from one on that the value counts as, a name to the text that it is, and no
other field changes. So valid settings stay valid, and settings that are made from fields are valid. -/
namespace DrawPile.Settings
open Binary64
variable {s : Settings} {v : Json}

/-- Limits are at least one, and no name is empty. -/
structure Valid (s : Settings) : Prop where
  maxDepth : 1 ≤ s.maxDepth
  maxDraws : 1 ≤ s.maxDraws
  labelLength : 1 ≤ s.labelLength
  defaultDeckName : s.defaultDeckName ≠ []
  untitledDeckName : s.untitledDeckName ≠ []

inductive Content
  | limit (n : Int)
  | name (t : Text)

def content (s : Settings) : Field → Content
  | .maxDepth => .limit s.maxDepth
  | .maxDraws => .limit s.maxDraws
  | .labelLength => .limit s.labelLength
  | .defaultDeckName => .name s.defaultDeckName
  | .untitledDeckName => .name s.untitledDeckName

def Content.Allowed : Content → Prop
  | .limit n => 1 ≤ n
  | .name t => t ≠ []

/-- The whole numbers that values count as. -/
inductive Counts : Json → Int → Prop
  | whole (n : Int) : Counts (.int n) n
  | truth (b : Bool) : Counts (.bool b) (if b then 1 else 0)
  | float {negative : Bool} {rank : Fin infinityRank} {n : Int} (exact : toRat negative rank = n)
      (small : n.natAbs < floatBound) : Counts (.float (.finite negative rank)) n
  | numeral {t : Text} {n : Int} (read : Numeral.read t = .ok n) : Counts (.text t) n

/-- A value fits in the place of what a field holds, and stands there for new content. -/
inductive Fits (v : Json) : Content → Content → Prop
  | limit {old n : Int} (counts : Counts v n) : Fits v (.limit old) (.limit n)
  | name {old t : Text} (text : v = .text t) : Fits v (.name old) (.name t)

/-- One field is set to allowed content that the value stands for, and the others are as they were. -/
structure Assigned (s : Settings) (field : Field) (v : Json) (t : Settings) : Prop where
  fits : Fits v (s.content field) (t.content field)
  allowed : (t.content field).Allowed
  others : ∀ other ≠ field, t.content other = s.content other

theorem valid_iff : s.Valid ↔ ∀ field, (s.content field).Allowed := by
  constructor
  · intro valid field
    cases field with
    | maxDepth => exact valid.maxDepth
    | maxDraws => exact valid.maxDraws
    | labelLength => exact valid.labelLength
    | defaultDeckName => exact valid.defaultDeckName
    | untitledDeckName => exact valid.untitledDeckName
  · intro allowed
    exact ⟨allowed .maxDepth, allowed .maxDraws, allowed .labelLength, allowed .defaultDeckName,
      allowed .untitledDeckName⟩

theorem eq_of_content {t : Settings} (same : ∀ field, t.content field = s.content field) :
    t = s := by
  have depth := same .maxDepth
  have draws := same .maxDraws
  have label := same .labelLength
  have default := same .defaultDeckName
  have untitled := same .untitledDeckName
  cases s
  cases t
  simp_all [content]

theorem readFloat_ok_iff {n : Int} {x : Binary64} : readFloat x = .ok n ↔ Counts (.float x) n := by
  cases x with
  | infinite =>
    constructor
    · intro read
      cases read
    · rintro ⟨⟩
  | nan =>
    constructor
    · intro read
      cases read
    · rintro ⟨⟩
  | finite negative rank =>
    have exact (m : Int) := @toInt?_eq_some_iff negative rank m
    constructor
    · intro read
      simp only [readFloat, floor?] at read
      cases whole : (finite negative rank).toInt? with
      | none => simp [whole] at read
      | some m =>
        simp only [whole] at read
        split at read
        · next small =>
          cases read
          exact .float ((exact n).1 whole) small
        · cases read
    · rintro (_ | _ | ⟨rational, small⟩)
      simp only [readFloat, floor?, (exact n).2 rational, if_pos small]

theorem readInt_ok_iff {n : Int} : readInt v = .ok n ↔ Counts v n := by
  constructor
  · intro read
    cases v with
    | int m => cases read; exact .whole n
    | bool b => cases read; exact .truth b
    | float x => exact readFloat_ok_iff.1 read
    | text t => exact .numeral read
    | null | list | object => cases read
  · intro counts
    cases counts with
    | whole | truth => rfl
    | float exact small => exact readFloat_ok_iff.2 (.float exact small)
    | numeral read => exact read

theorem readLimit_ok_iff {n : Int} : readLimit v = .ok n ↔ Counts v n ∧ 1 ≤ n := by
  rw [← readInt_ok_iff, readLimit]
  cases readInt v with
  | error fault => simp
  | ok m =>
    by_cases small : m < 1
    · simp only [if_pos small, reduceCtorEq, Except.ok.injEq, false_iff, not_and]
      rintro rfl
      omega
    · simp only [if_neg small, Except.ok.injEq, iff_self_and]
      rintro rfl
      omega

theorem readName_ok_iff {name : Text} : readName v = .ok name ↔ v = .text name ∧ name ≠ [] := by
  cases v with
  | text t =>
    rw [readName]
    split
    · next empty => simp [empty]
    · next filled =>
      simp only [Except.ok.injEq, Json.text.injEq, iff_self_and]
      rintro rfl
      exact filled
  | _ => simp [readName]

theorem readLimit_fits {n old : Int} :
    readLimit v = .ok n ↔ Fits v (.limit old) (.limit n) ∧ (Content.limit n).Allowed := by
  rw [readLimit_ok_iff]
  refine and_congr_left fun _ => ⟨.limit, fun fits => ?_⟩
  cases fits with
  | limit counts => exact counts

theorem readName_fits {name old : Text} :
    readName v = .ok name ↔ Fits v (.name old) (.name name) ∧ (Content.name name).Allowed := by
  rw [readName_ok_iff]
  refine and_congr_left fun _ => ⟨.name, fun fits => ?_⟩
  cases fits with
  | name text => exact text

/-- Reading a value and building settings from what was read comes to an assignment, if that goes to
the field and nowhere else. -/
theorem map_ok_iff_assigned {t : Settings} {field : Field} {α : Type} {read : Except Fault α}
    {hold : α → Content} {build : α → Settings}
    (reads : ∀ a, read = .ok a ↔ Fits v (s.content field) (hold a) ∧ (hold a).Allowed)
    (kind : ∀ c, Fits v (s.content field) c → ∃ a, c = hold a)
    (placed : ∀ a, (build a).content field = hold a)
    (others : ∀ a, ∀ other ≠ field, (build a).content other = s.content other) :
    read.map build = .ok t ↔ Assigned s field v t := by
  constructor
  · intro set
    cases given : read with
    | error fault => rw [given] at set; cases set
    | ok a =>
      rw [given] at set
      cases set
      obtain ⟨fits, allowed⟩ := (reads a).1 given
      exact ⟨(placed a).symm ▸ fits, (placed a).symm ▸ allowed, others a⟩
  · intro assigned
    obtain ⟨a, held⟩ := kind _ assigned.fits
    have given : read = .ok a := (reads a).2 ⟨held ▸ assigned.fits, held ▸ assigned.allowed⟩
    have same : build a = t := by
      apply eq_of_content
      intro other
      by_cases here : other = field
      · rw [here, placed, held]
      · rw [others a other here, assigned.others other here]
    rw [given, ← same]
    rfl

theorem set_ok_iff {t : Settings} {field : Field} :
    s.set field v = .ok t ↔ Assigned s field v t := by
  have limits (old : Int) : ∀ c, Fits v (.limit old) c → ∃ n, c = .limit n := by
    rintro _ ⟨counts⟩
    exact ⟨_, rfl⟩
  have names (old : Text) : ∀ c, Fits v (.name old) c → ∃ t, c = .name t := by
    rintro _ ⟨text⟩
    exact ⟨_, rfl⟩
  cases field with
  | maxDepth | maxDraws | labelLength =>
    refine map_ok_iff_assigned (fun _ => readLimit_fits) (limits _) (fun _ => rfl) fun _ other => ?_
    cases other <;> simp [content]
  | defaultDeckName | untitledDeckName =>
    refine map_ok_iff_assigned (fun _ => readName_fits) (names _) (fun _ => rfl) fun _ other => ?_
    cases other <;> simp [content]

theorem Assigned.valid {t : Settings} {field : Field} (assigned : Assigned s field v t)
    (valid : s.Valid) : t.Valid := by
  rw [valid_iff] at valid ⊢
  intro other
  by_cases here : other = field
  · exact here ▸ assigned.allowed
  · exact assigned.others other here ▸ valid other

theorem assign_ok_iff {t : Settings} {field : Field} :
    s.assign field v = .ok t ↔ Assigned s field v t := by
  rw [← set_ok_iff, assign]
  cases s.set field v <;> simp

/-- The error of an assignment names the field. -/
theorem assign_error {field : Field} {e : Error} (refused : s.assign field v = .error e) :
    ∃ fault, e = .invalid [(field.name, fault)] := by
  unfold assign at refused
  cases set : s.set field v with
  | ok settings => simp [set] at refused
  | error fault =>
    simp only [set] at refused
    cases refused
    exact ⟨fault, rfl⟩

theorem valid_standard : standard.Valid where
  maxDepth := by decide
  maxDraws := by decide
  labelLength := by decide
  defaultDeckName := by decide
  untitledDeckName := by decide

theorem setGiven_valid (given : Catalog Json) (valid : s.Valid) (field : Field) :
    (setGiven given s field).Valid := by
  unfold setGiven
  split
  · exact valid
  · split
    · next set => exact (set_ok_iff.1 set).valid valid
    · exact valid

theorem foldl_setGiven_valid (given : Catalog Json) (valid : s.Valid) (fields : List Field) :
    (fields.foldl (setGiven given) s).Valid := by
  induction fields generalizing s with
  | nil => exact valid
  | cons field fields ih => exact ih (setGiven_valid given valid field)

/-- All settings that are made from fields are valid. -/
theorem ofCatalog_valid {given : Catalog Json} (made : ofCatalog given = .ok s) : s.Valid := by
  unfold ofCatalog at made
  split at made
  · cases made
    exact foldl_setGiven_valid given valid_standard Field.all
  · cases made

theorem Valid.limits (valid : s.Valid) :
    Reference.Limits.ofInts? s.maxDepth s.maxDraws =
      .ok ⟨s.maxDepth.toNat, s.maxDraws.toNat⟩ := by
  have depth := valid.maxDepth
  have draws := valid.maxDraws
  rw [Reference.Limits.ofInts?, if_neg (by omega), if_neg (by omega)]

end DrawPile.Settings
