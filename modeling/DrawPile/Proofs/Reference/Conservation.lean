import DrawPile.Proofs.Catalog
import DrawPile.Proofs.Reference.Substitution
import Mathlib.Data.List.Perm.Basic

/-! Conservation of entries. However a resolution ends, each deck held before it what it holds
after it and what the observer was told of, entry by entry, and the random source was asked once
for each entry drawn. -/
namespace DrawPile

/-- Tells the observer of removals one after another, until it gives an error. -/
def Observer.tellAll {σ : Type} (observe : Observer σ) : List Removal → σ → Outcome σ Unit
  | [], host => (host, .ok ())
  | r :: rs, host => (observe r host).andThen fun host _ => tellAll observe rs host

namespace Reference
variable {σ : Type} {observe : Observer σ}

@[simp] theorem removals_append (rs rs' : List Substitution) :
    removals (rs ++ rs') = removals rs ++ removals rs' := List.filterMap_append

def takenFrom (name : Text) (rs : List Substitution) : List Text :=
  ((removals rs).filter fun r => decide (r.deck = name)).map Removal.entry

theorem takenFrom_append (name : Text) (rs rs' : List Substitution) :
    takenFrom name (rs ++ rs') = takenFrom name rs ++ takenFrom name rs' := by
  simp [takenFrom]

theorem tellAll_append {host host' : σ} {first rest : List Removal}
    (told : observe.tellAll first host = (host', .ok ())) :
    observe.tellAll (first ++ rest) host = observe.tellAll rest host' := by
  induction first generalizing host with
  | nil =>
    cases told
    rfl
  | cons r first ih =>
    simp only [Observer.tellAll, List.cons_append] at told ⊢
    rcases answer : observe r host with ⟨next, e | u⟩
    · simp [answer] at told
    · simp only [answer, Outcome.andThen_ok] at told ⊢
      exact ih told

/- The books of a run of substitutions, by what it did. -/
structure Accounts (observe : Observer σ) (before : Table σ) (rs : List Substitution)
    (after : Table σ) (heard : Except Error Unit) : Prop where
  names : after.decks.names = before.decks.names
  survivors : ∀ name, (after.entries name).Sublist (before.entries name)
  balance : ∀ name, (before.entries name).Perm (after.entries name ++ takenFrom name rs)
  told : observe.tellAll (removals rs) before.host = (after.host, heard)
  consumed : after.consumed = before.consumed ++ removals rs
  calls : after.source.calls = before.source.calls + rs.countP fun r => r.drawn.isSome
  replaced : after.replaced = before.replaced + rs.length

namespace Accounts

theorem refl (t : Table σ) : Accounts observe t [] t (.ok ()) where
  names := rfl
  survivors _ := .refl _
  balance _ := by simp [takenFrom, removals]
  told := rfl
  consumed := by simp [removals]
  calls := rfl
  replaced := rfl

theorem trans {before between after : Table σ} {rs rs' : List Substitution}
    {heard : Except Error Unit} (first : Accounts observe before rs between (.ok ()))
    (rest : Accounts observe between rs' after heard) :
    Accounts observe before (rs ++ rs') after heard where
  names := rest.names.trans first.names
  survivors name := (rest.survivors name).trans (first.survivors name)
  balance name := by
    rw [takenFrom_append]
    calc (before.entries name).Perm (between.entries name ++ takenFrom name rs) :=
          first.balance name
      List.Perm _ (after.entries name ++ takenFrom name rs' ++ takenFrom name rs) :=
          (rest.balance name).append_right _
      List.Perm _ (after.entries name ++ (takenFrom name rs ++ takenFrom name rs')) := by
          rw [List.append_assoc]
          exact List.perm_append_comm.append_left _
  told := by rw [removals_append, tellAll_append first.told, rest.told]
  consumed := by rw [rest.consumed, first.consumed, removals_append, List.append_assoc]
  calls := by rw [rest.calls, first.calls, List.countP_append]; omega
  replaced := by rw [rest.replaced, first.replaced, List.length_append]; omega

end Accounts

theorem entries_put_self (t : Table σ) (name : Text) (entries : List Text) :
    Table.entries { t with decks := t.decks.put name entries } name = entries := by
  simp [Table.entries, Catalog.get?_put_self]

theorem entries_put_of_ne (t : Table σ) {name other : Text} (different : other ≠ name)
    (entries : List Text) :
    Table.entries { t with decks := t.decks.put name entries } other = t.entries other := by
  simp [Table.entries, Catalog.get?_put_of_ne different]

theorem accounts_taken {t : Table σ} {name raw : Text}
    (there : (t.entries name)[nextPlace t name]? = some raw) :
    Accounts observe t [⟨.taking, name, some raw⟩]
      { drew t with
        decks := t.decks.put name ((t.entries name).eraseIdx (nextPlace t name))
        consumed := t.consumed ++ [⟨name, raw⟩]
        host := (observe ⟨name, raw⟩ t.host).1 }
      (observe ⟨name, raw⟩ t.host).2 where
  names := Catalog.names_put_of_mem (Catalog.mem_names_of_get? (Table.get?_of_entries there))
  survivors other := by
    by_cases same : other = name
    · subst same
      exact (entries_put_self (drew t) _ _).symm ▸ List.eraseIdx_sublist _ _
    · exact (entries_put_of_ne (drew t) same _).symm ▸ List.Sublist.refl _
  balance other := by
    by_cases same : other = name
    · subst same
      obtain ⟨below, rfl⟩ := List.getElem?_eq_some_iff.1 there
      have left := entries_put_self (drew t) other ((t.entries other).eraseIdx (nextPlace t other))
      have taken : takenFrom other [⟨.taking, other, some (t.entries other)[nextPlace t other]⟩] =
          [(t.entries other)[nextPlace t other]] := by
        simp [takenFrom, removals, Substitution.removal?]
      refine (List.getElem_cons_eraseIdx_perm below).symm.trans ?_
      rw [taken]
      exact left.symm ▸ (List.perm_append_singleton _ _).symm
    · have kept := entries_put_of_ne (drew t) same ((t.entries name).eraseIdx (nextPlace t name))
      have taken : takenFrom other [⟨.taking, name, some raw⟩] = [] := by
        simp [takenFrom, removals, Substitution.removal?, Ne.symm same]
      rw [taken, List.append_nil]
      exact kept.symm ▸ List.Perm.refl _
  told := by
    simp only [removals, Substitution.removal?, List.filterMap_cons, List.filterMap_nil,
      Option.map_some, Observer.tellAll]
    rcases observe ⟨name, raw⟩ t.host with ⟨host, e | u⟩ <;> rfl
  consumed := rfl
  calls := rfl
  replaced := rfl

theorem accounts_untouched {t after : Table σ} {r : Substitution} (nothing : r.removal? = none)
    (decks : after.decks = t.decks) (host : after.host = t.host)
    (consumed : after.consumed = t.consumed) (replaced : after.replaced = t.replaced + 1)
    (calls : after.source.calls = t.source.calls + [r].countP fun r => r.drawn.isSome) :
    Accounts observe t [r] after (.ok ()) := by
  have same (name : Text) : after.entries name = t.entries name := by
    simp only [Table.entries, decks]
  have none_taken : removals [r] = [] := by simp [removals, nothing]
  exact {
    names := by rw [decks]
    survivors := fun name => same name ▸ List.Sublist.refl _
    balance := fun name => by
      rw [takenFrom, none_taken, same]
      simp
    told := by rw [none_taken, host]; rfl
    consumed := by rw [none_taken, consumed, List.append_nil]
    calls := calls
    replaced := replaced }

theorem Substitutes.accounts {t after : Table σ} {heard : Except Error Unit} {r : Substitution}
    (step : Substitutes observe t r after heard) :
    Accounts observe t [r] after heard := by
  cases step with
  | @missing form name empty =>
    have nothing : Substitution.removal? ⟨form, name, none⟩ = none := by cases form <;> rfl
    exact accounts_untouched nothing rfl rfl rfl rfl rfl
  | kept there => exact accounts_untouched rfl rfl rfl rfl rfl rfl
  | taken there => exact accounts_taken there

theorem Draws.accounts {before after : Table σ} {rs : List Substitution} {heard : Except Error Unit}
    (draws : Draws observe before rs after heard) :
    Accounts observe before rs after heard := by
  induction draws with
  | done => exact .refl _
  | next first _ ih => exact first.accounts.trans ih
  | stopped last => exact last.accounts

/-- Entries are conserved whether the resolution returns, exceeds a limit or is stopped by the
observer: it is a run of substitutions, and its books balance. -/
theorem resolve_conserves_entries {σ : Type} (limits : Limits) (observe : Observer σ) (text : Text)
    (t : Table σ) :
    ∃ rs heard, Draws observe { t with replaced := 0 } rs (resolve limits observe text t).1 heard ∧
      Ending heard (resolve limits observe text t).2 ∧
      Accounts observe { t with replaced := 0 } rs (resolve limits observe text t).1 heard := by
  obtain ⟨rs, heard, draws, ending⟩ := performs_resolve limits observe text t
  exact ⟨rs, heard, draws, ending, draws.accounts⟩

end Reference

end DrawPile
