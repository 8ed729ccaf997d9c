import DrawPile.Proofs.Catalog
import Mathlib.Data.List.Nodup

/-! One catalog put into another. Names that both have keep their places and take the values put
in; new names follow in their order. Names stay distinct, and nothing changes where all that is put
in is there already. -/
namespace DrawPile.Catalog
variable {β : Type} {c more : Catalog β}

/-- The catalog with the values of another one under the names they share. -/
def override (c more : Catalog β) : Catalog β := c.map fun e => (e.1, (more.get? e.1).getD e.2)

/-- The entries of `more` under names that the catalog does not have. -/
def newIn (c more : Catalog β) : Catalog β := more.filter fun e => !c.names.contains e.1

/-- One catalog on top of another. -/
def merged (c more : Catalog β) : Catalog β := c.override more ++ c.newIn more

theorem get?_of_mem {name : Text} {v : β} (distinct : c.names.Nodup) (member : (name, v) ∈ c) :
    c.get? name = some v := by
  induction c with
  | nil => cases member
  | cons e c ih =>
    rw [names_cons, List.nodup_cons] at distinct
    rcases List.mem_cons.1 member with rfl | member
    · simp [get?]
    · have different : e.1 ≠ name := (ne_of_not_mem distinct.1 member).symm
      rw [get?, if_neg different, ih distinct.2 member]

theorem nodup_put (distinct : c.names.Nodup) (name : Text) (v : β) :
    (c.put name v).names.Nodup := by
  by_cases present : name ∈ c.names
  · rwa [names_put_of_mem present]
  · rw [put_of_not_mem present, names_append, names_cons, names_nil]
    exact List.nodup_append_comm.1 (List.nodup_cons.2 ⟨present, distinct⟩)

theorem nodup_putAll (distinct : c.names.Nodup) (more : Catalog β) :
    (c.putAll more).names.Nodup := by
  induction more generalizing c with
  | nil => exact distinct
  | cons e more ih => exact ih (nodup_put distinct e.1 e.2)

theorem mem_of_mem_put {name : Text} {v : β} {e : Text × β} (member : e ∈ c.put name v) :
    e = (name, v) ∨ e ∈ c := by
  induction c with
  | nil => exact .inl (List.mem_singleton.1 member)
  | cons d c ih =>
    rw [put] at member
    split at member
    · next same =>
      rcases List.mem_cons.1 member with rfl | behind
      · exact .inl (by rw [same])
      · exact .inr (List.mem_cons_of_mem d behind)
    · rcases List.mem_cons.1 member with rfl | behind
      · exact .inr List.mem_cons_self
      · exact (ih behind).imp_right (List.mem_cons_of_mem d)

theorem mem_of_mem_putAll {e : Text × β} (member : e ∈ c.putAll more) : e ∈ more ∨ e ∈ c := by
  induction more generalizing c with
  | nil => exact .inr member
  | cons d more ih =>
    rcases ih member with among | member
    · exact .inl (List.mem_cons_of_mem d among)
    · rcases mem_of_mem_put member with rfl | before
      · exact .inl List.mem_cons_self
      · exact .inr before

theorem mem_of_mem_ofList {e : Text × β} {entries : List (Text × β)}
    (member : e ∈ ofList entries) : e ∈ entries :=
  (mem_of_mem_putAll member).resolve_right List.not_mem_nil

theorem nodup_ofList (entries : List (Text × β)) : (ofList entries).names.Nodup :=
  nodup_putAll (c := []) List.nodup_nil entries

@[simp] theorem names_override (c more : Catalog β) : (c.override more).names = c.names := by
  simp [override, names]

end DrawPile.Catalog
