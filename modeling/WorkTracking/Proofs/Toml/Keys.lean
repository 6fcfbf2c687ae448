import Mathlib.Data.List.Nodup
import WorkTracking.Toml.Document

/-!
Keys of the table that a document is read into. Whatever a statement does, it puts one item under
one key of the root table, in place of what stood there, so each key stands in the table once. Then
the table is no more than a map from keys to items: its entries are what lookups find.
-/
namespace WorkTracking.Toml

namespace Table

/-- No key stands in the table twice. -/
def Distinct (t : Table) : Prop := (t.map Prod.fst).Nodup

theorem distinct_nil : Distinct [] := List.nodup_nil

theorem get?_eq_none_iff {t : Table} {key : String} :
    t.get? key = none ↔ key ∉ t.map Prod.fst := by
  simp only [get?, List.lookup_eq_none_iff, List.mem_map, not_exists, not_and, bne_iff_ne]
  exact ⟨fun h e he heq => h e he heq.symm, fun h e he heq => h e he heq.symm⟩

theorem keys_set_of_some {t : Table} {key : String} (item : Item) (h : (t.get? key).isSome = true) :
    (t.set key item).map Prod.fst = t.map Prod.fst := by
  rw [set, if_pos h, List.map_map]
  refine List.map_congr_left fun e _ => ?_
  simp only [Function.comp_apply]
  split
  next heq => exact heq.symm
  next => rfl

theorem keys_set_of_none {t : Table} {key : String} (item : Item) (h : t.get? key = none) :
    (t.set key item).map Prod.fst = t.map Prod.fst ++ [key] := by
  simp [set, h]

theorem Distinct.set {t : Table} (h : t.Distinct) (key : String) (item : Item) :
    (t.set key item).Distinct := by
  unfold Distinct at h ⊢
  cases hkey : t.get? key with
  | some old => rwa [keys_set_of_some item (by rw [hkey]; rfl)]
  | none =>
    rw [keys_set_of_none item hkey]
    rw [← List.concat_eq_append]
    exact h.concat (get?_eq_none_iff.mp hkey)

/-- Entries are what lookups find. -/
theorem Distinct.mem_iff {t : Table} (h : t.Distinct) {key : String} {item : Item} :
    (key, item) ∈ t ↔ t.get? key = some item := by
  rw [get?, List.lookup_eq_some_iff]
  constructor
  · intro hmem
    obtain ⟨before, later, rfl⟩ := List.append_of_mem hmem
    refine ⟨before, later, rfl, fun e he => ?_⟩
    rw [Distinct, List.map_append, List.nodup_append] at h
    rw [bne_iff_ne]
    exact (h.2.2 e.1 (List.mem_map_of_mem he) key (by simp)).symm
  · rintro ⟨before, later, rfl, -⟩
    simp

/-! ### What a statement does to the root table -/

/-- One item is put under one key. -/
def Puts (change : Table → Option Table) : Prop :=
  ∀ t new, change t = some new → ∃ key item, new = t.set key item

theorem exists_set_of_bind {α : Type} {x : Option α} {t new : Table} {key : String} {f : α → Item}
    (h : (do return t.set key (f (← x))) = some new) : ∃ key item, new = t.set key item := by
  obtain ⟨a, -, hnew⟩ := Option.bind_eq_some_iff.mp h
  cases hnew
  exact ⟨key, f a, rfl⟩

/-- What is put into a table further inside shows as one item of the table around it. -/
theorem Puts.within {change : Table → Option Table} (h : Puts change) (path : List String) :
    Puts (within path change) := by
  intro t new hnew
  unfold Table.within at hnew
  split at hnew
  next => exact h t new hnew
  next key path =>
    split at hnew
    next => exact exists_set_of_bind hnew
    next => cases hnew
    next => exact exists_set_of_bind hnew
    next =>
      obtain ⟨last, -, hnew⟩ := Option.bind_eq_some_iff.mp hnew
      exact exists_set_of_bind hnew
    next => cases hnew

end Table

/-! ### Documents -/

end WorkTracking.Toml
