import DrawPile.Proofs.Settings
import DrawPile.Proofs.Store.Drawing
import DrawPile.Proofs.Store.Naming
import DrawPile.Proofs.Store.Settings
import DrawPile.Proofs.Store.Visibility

/-! Assigning settings. A value that fits is assigned to its field, and any other is refused and leaves
the store as it was; nothing else changes settings. So they are valid in every store that operations
lead to: there are always limits for a resolution, and a name for a deck that is given none. -/
namespace DrawPile

/-- The error of limits that no resolution could begin with. -/
inductive Error.OfLimits : Error → Prop
  | small (limit : Text) : OfLimits (.limitTooSmall limit)

namespace Store
variable {s : Store}

theorem ofJson_settings {data : Json} {settings : Settings} {source : Source}
    {warnings : List Warning} (built : ofJson data settings source = (warnings, .ok s)) :
    s.settings = settings := by
  obtain ⟨decks, -, rfl⟩ := ofJson_eq_ok built
  rfl

/-- What comes of assigning a value to a field of the settings. -/
inductive Assigns (s : Store) (field : Settings.Field) (v : Json) : Outcome Store Reply → Prop
  | accepted {settings : Settings} (assigned : s.settings.Assigned field v settings) :
      Assigns s field v ({ s.freshRecord with settings }, .ok .done)
  | refused {fault : Fault} (unfit : ∀ settings, ¬ s.settings.Assigned field v settings) :
      Assigns s field v (s.freshRecord, .error (.invalid [(field.name, fault)]))

theorem step_assign (s : Store) (field : Settings.Field) (v : Json) :
    Assigns s field v (s.step (.assign field v)) := by
  have accepts (settings : Settings) :
      s.settings.assign field v = .ok settings ↔ s.settings.Assigned field v settings :=
    Settings.assign_ok_iff
  have fresh : s.freshRecord.settings = s.settings := rfl
  rw [step, perform, fresh]
  cases set : s.settings.assign field v with
  | ok settings => exact .accepted ((accepts settings).1 set)
  | error e =>
    obtain ⟨fault, rfl⟩ := Settings.assign_error set
    refine .refused fun settings assigned => ?_
    rw [(accepts settings).2 assigned] at set
    cases set

namespace Assigns

theorem valid {field : Settings.Field} {v : Json} {o : Outcome Store Reply}
    (assigns : Assigns s field v o) (valid : s.settings.Valid) :
    o.1.settings.Valid := by
  cases assigns with
  | accepted assigned => exact assigned.valid valid
  | refused => exact valid

theorem kept {field : Settings.Field} {v : Json} {o : Outcome Store Reply} {e : Error}
    (assigns : Assigns s field v o) (failed : o.2 = .error e) :
    o.1.settings = s.settings := by
  cases assigns with
  | accepted => cases failed
  | refused => rfl

end Assigns

theorem step_settings_valid (valid : s.settings.Valid) (op : Operation) :
    (s.step op).1.settings.Valid := by
  by_cases assigns : ∃ field value, op = .assign field value
  · obtain ⟨field, value, rfl⟩ := assigns
    exact (step_assign s field value).valid valid
  · rw [step_settings s fun field value same => assigns ⟨field, value, same⟩]
    exact valid

/-- Settings are valid in every store that operations lead to. -/
theorem Reachable.settings_valid (reachable : Reachable s) : s.settings.Valid := by
  induction reachable with
  | built valid made => exact ofJson_settings made ▸ Settings.ofCatalog_valid valid
  | stepped _ op ih => exact step_settings_valid ih op

theorem ResolveFails.not_ofLimits {e : Error} (valid : s.settings.Valid)
    (fails : s.ResolveFails e) : ¬ e.OfLimits := by
  cases fails with
  | limits refused =>
    rw [valid.limits] at refused
    cases refused
  | unfinished | listener => rintro ⟨⟩

theorem DrawFails.not_ofLimits {name : Text} {e : Error} (valid : s.settings.Valid)
    (fails : s.DrawFails name e) : ¬ e.OfLimits := by
  cases fails with
  | starved _ starved => cases starved; rintro ⟨⟩
  | dice dice => cases dice <;> rintro ⟨⟩
  | resolving fails => exact fails.not_ofLimits valid

theorem step_failsOnly_limits (valid : s.settings.Valid) {op : Operation} (resolves : op.Resolves) :
    (s.step op).FailsOnly fun e => ¬ e.OfLimits := by
  have fresh : s.freshRecord.settings.Valid := valid
  obtain ⟨name, rfl⟩ | ⟨text, rfl⟩ := resolves
  · have drawn := draw_failsOnly s.freshRecord name
    exact (drawn.imp (fun _ _ _ => trivial) fun _ _ fails => fails.not_ofLimits fresh).map
      fun _ _ _ => trivial
  · have resolved := resolve_failsOnly s.freshRecord text
    exact (resolved.imp (fun _ _ _ => trivial) fun _ _ fails => fails.not_ofLimits fresh).map
      fun _ _ _ => trivial

theorem nonBlankOr_ne_nil {fallback : Text} (filled : fallback ≠ []) (t : Text) :
    nonBlankOr fallback t ≠ [] := by
  unfold nonBlankOr
  split
  · exact filled
  · assumption

theorem renameTarget_ne_nil (filled : s.settings.untitledDeckName ≠ []) (name newName : Text) :
    s.renameTarget name newName ≠ [] := by
  unfold renameTarget
  simp only
  split
  · exact List.cons_ne_nil _ _
  · exact nonBlankOr_ne_nil filled newName

theorem numbered_ne_nil {name : Text} (filled : name ≠ []) (k : Nat) : numbered name k ≠ [] := by
  rw [numbered_eq]
  exact List.append_ne_nil_of_left_ne_nil filled _

theorem createDeck_named (valid : s.settings.Valid) (given : Option Text) :
    ∃ fresh ≠ [], (s.step (.createDeck given)).1.decks = s.decks ++ [(fresh, [])] := by
  obtain ⟨k, -, chosen, -⟩ := exists_firstFree s.names (s.wantedName given)
  have wanted : s.wantedName given ≠ [] := nonBlankOr_ne_nil valid.defaultDeckName _
  refine ⟨numbered (s.wantedName given) k, numbered_ne_nil wanted k, ?_⟩
  rw [step_createDeck, chosen]
  rfl

/-- In every store that operations lead to, the limits are at least one and no name of the settings is
empty. To assign a value sets one field, if the value fits, and a whole number fits also in digits
between blanks; otherwise it fails, and all fields are as they were. So no draw and no resolution fails
for its limits, and the name that a deck gets where none is given, or a blank one, is not empty. -/
theorem settings_stay_valid {s : Store} (reachable : Reachable s) :
    s.settings.Valid ∧
    (∀ field v, Assigns s field v (s.step (.assign field v))) ∧
    (∀ field v e, (s.step (.assign field v)).2 = .error e →
      (s.step (.assign field v)).1.settings = s.settings) ∧
    (∀ (n : Int) (front back : Text), (Text.ofNat n.natAbs).length ≤ Text.maxDigits →
      (∀ c ∈ front, Settings.Numeral.isSpace c = true) →
      (∀ c ∈ back, Settings.Numeral.isSpace c = true) →
      Settings.Counts (.text (front ++ Text.ofInt n ++ back)) n) ∧
    (∀ op limit, op.Resolves → (s.step op).2 ≠ .error (.limitTooSmall limit)) ∧
    (∀ given, s.wantedName given ≠ [] ∧
      ∃ fresh ≠ [], (s.step (.createDeck given)).1.decks = s.decks ++ [(fresh, [])]) ∧
    ∀ name newName, s.askedName newName ≠ [] ∧ s.renameTarget name newName ≠ [] ∧
      ∀ n ∈ (s.step (.renameDeck name newName)).1.names, n ∈ s.names ∨ n ≠ [] := by
  have valid := reachable.settings_valid
  refine ⟨valid, step_assign s, ?_, ?_, ?_, ?_, ?_⟩
  · intro field v e failed
    exact (step_assign s field v).kept failed
  · intro n front back short before behind
    exact .numeral (Settings.Numeral.read_ofInt short before behind)
  · intro op limit resolves refused
    exact (step_failsOnly_limits valid resolves).failed refused (.small limit)
  · intro given
    exact ⟨nonBlankOr_ne_nil valid.defaultDeckName _, createDeck_named valid given⟩
  · intro name newName
    refine ⟨nonBlankOr_ne_nil valid.untitledDeckName _,
      renameTarget_ne_nil valid.untitledDeckName _ _, ?_⟩
    intro n member
    have brings : Brings s (Coined s (.renameDeck name newName)) _ := step_brings s rfl
    rcases brings n member with old | new
    · exact .inl old
    · cases new with
      | renamed => exact .inr (renameTarget_ne_nil valid.untitledDeckName _ _)
      | hidden _ asked => rcases asked with same | same <;> cases same
      | revealed _ asked => rcases asked with same | same <;> cases same

def tuned : Store := (underscored.step (.assign .maxDepth (.text " 12 ".toList))).1

theorem tuned_reachable : Reachable tuned := underscored_reachable.stepped _

theorem settings_stay_valid_of_tuned :
    Reachable tuned ∧ tuned.settings = { maxDepth := 12 } ∧ tuned.settings.Valid ∧
      (tuned.step (.assign .maxDepth (.int 0))).2 =
        .error (.invalid [("max_depth".toList, .tooSmall)]) ∧
      (tuned.step (.assign .maxDepth (.int 0))).1.settings = tuned.settings := by
  obtain ⟨valid, -, kept, -⟩ := settings_stay_valid tuned_reachable
  have refused : (tuned.step (.assign .maxDepth (.int 0))).2 =
      .error (.invalid [("max_depth".toList, .tooSmall)]) := rfl
  exact ⟨tuned_reachable, by decide, valid, refused, kept _ _ _ refused⟩

end Store

end DrawPile
