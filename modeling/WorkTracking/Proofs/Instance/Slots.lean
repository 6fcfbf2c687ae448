import WorkTracking.Instance.SlotTable
import WorkTracking.Proofs.OrderedMap

/-!
Slots and what is in them. An instance is absent, or the slots are cut at the first one that holds
it; each operation on a slot table puts one slot in another state and leaves the others.
-/
namespace WorkTracking

variable {K V : Type}

/-- A list has nothing of a kind, or can be cut at the first of the kind. -/
theorem none_or_first {A : Type} (p : A → Bool) (l : List A) :
    (∀ a ∈ l, p a = false) ∨
      ∃ before a after, l = before ++ a :: after ∧ p a = true ∧ ∀ b ∈ before, p b = false := by
  cases h : l.find? p with
  | none =>
    left
    simpa using List.find?_eq_none.mp h
  | some a =>
    obtain ⟨ha, before, after, hl, hfirst⟩ := List.find?_eq_some_iff_append.mp h
    exact .inr ⟨before, a, after, hl, ha, by simpa using hfirst⟩

theorem findIdx?_of_first {A : Type} {p : A → Bool} {before : List A} {a : A} (ha : p a = true)
    (hfirst : ∀ b ∈ before, p b = false) (after : List A) :
    (before ++ a :: after).findIdx? p = some before.length := by
  rw [List.findIdx?_append, List.findIdx?_eq_none_iff.mpr hfirst, List.findIdx?_cons, ha]
  simp

namespace SlotTable

theorem holds_eq_false_iff {k : Instance K} {s : Option (Instance K × V)} :
    holds k s = false ↔ ∀ e ∈ s, (e.1 == k) = false := by
  cases s <;> simp [holds]

theorem any_filterMap_eq_false {k : Instance K} {slots : List (Option (Instance K × V))}
    (h : ∀ s ∈ slots, holds k s = false) : (slots.filterMap id).any (·.1 == k) = false := by
  simp only [List.any_eq_false, List.mem_filterMap, id, Bool.not_eq_true]
  rintro e ⟨s, hs, rfl⟩
  exact holds_eq_false_iff.mp (h _ hs) e rfl

theorem filterMap_cut (before : List (Option (Instance K × V))) (s : Option (Instance K × V))
    (after : List (Option (Instance K × V))) :
    (before ++ s :: after).filterMap id =
      before.filterMap id ++ (s.toList ++ after.filterMap id) := by
  rw [List.filterMap_append]
  cases s <;> rfl

theorem length_cut (before : List (Option (Instance K × V))) (s s' : Option (Instance K × V))
    (after : List (Option (Instance K × V))) :
    (before ++ s :: after).length = (before ++ s' :: after).length := by
  rw [List.length_append, List.length_append]
  rfl

theorem toList_taken (before : List (Option (Instance K × V))) (e : Instance K × V)
    (after : List (Option (Instance K × V))) (count : Nat) :
    toList ⟨before ++ some e :: after, count⟩ =
      before.filterMap id ++ e :: after.filterMap id :=
  filterMap_cut before (some e) after

theorem toList_free (before after : List (Option (Instance K × V))) (count : Nat) :
    toList ⟨before ++ none :: after, count⟩ = before.filterMap id ++ after.filterMap id :=
  filterMap_cut before none after

def Absent (t : SlotTable K V) (k : Instance K) : Prop := ∀ s ∈ t.slots, holds k s = false

/-- `k` is in the slot of the entry `e`, and in none before it. -/
structure Placed (t : SlotTable K V) (k : Instance K) (before : List (Option (Instance K × V)))
    (e : Instance K × V) (after : List (Option (Instance K × V))) : Prop where
  slots : t.slots = before ++ some e :: after
  key : (e.1 == k) = true
  first : ∀ s ∈ before, holds k s = false

theorem absent_or_placed (t : SlotTable K V) (k : Instance K) :
    t.Absent k ∨ ∃ before e after, t.Placed k before e after := by
  refine (none_or_first (holds k) t.slots).imp_right ?_
  rintro ⟨before, _ | e, after, hslots, hhere, hfirst⟩
  · cases hhere
  · exact ⟨before, e, after, hslots, hhere, hfirst⟩

namespace Absent

variable {t : SlotTable K V} {k : Instance K}

theorem place? (h : t.Absent k) : t.place? k = none := List.findIdx?_eq_none_iff.mpr h

theorem any_toList (h : t.Absent k) : t.toList.any (·.1 == k) = false := any_filterMap_eq_false h

theorem get? (h : t.Absent k) : t.get? k = none := by
  unfold SlotTable.get?
  rw [h.place?]
  rfl

end Absent

namespace Placed

variable {t : SlotTable K V} {k : Instance K} {before after : List (Option (Instance K × V))}
  {e : Instance K × V}

theorem place? (h : t.Placed k before e after) : t.place? k = some before.length := by
  have hhere : holds k (some e) = true := h.key
  unfold SlotTable.place?
  rw [h.slots]
  exact findIdx?_of_first hhere h.first after

theorem valueAt? (h : t.Placed k before e after) : t.valueAt? before.length = some e.2 := by
  simp [SlotTable.valueAt?, h.slots]

theorem get? (h : t.Placed k before e after) : t.get? k = some e.2 := by
  unfold SlotTable.get?
  rw [h.place?]
  exact h.valueAt?

theorem toList_eq (h : t.Placed k before e after) :
    t.toList = before.filterMap id ++ e :: after.filterMap id := by
  unfold toList
  rw [h.slots]
  exact filterMap_cut before (some e) after

theorem find?_toList (h : t.Placed k before e after) :
    t.toList.find? (·.1 == k) = some e := by
  rw [h.toList_eq]
  exact OrderedMap.find?_of_first (any_filterMap_eq_false h.first) h.key _

theorem any_toList (h : t.Placed k before e after) : t.toList.any (·.1 == k) = true :=
  List.any_eq_true.mpr ⟨e, List.mem_of_find?_eq_some h.find?_toList, h.key⟩

/-- With a new value in its slot, the instance is still found there. -/
theorem replace (h : t.Placed k before e after) (v : V) :
    Placed ⟨t.slots.set before.length (some (k, v)), t.count⟩ k before (k, v) after where
  slots := by simp [h.slots]
  key := BEq.rfl
  first := h.first

end Placed

theorem get?_eq_find? (t : SlotTable K V) (k : Instance K) :
    t.get? k = (t.toList.find? (·.1 == k)).map Prod.snd := by
  rcases t.absent_or_placed k with h | ⟨before, e, after, h⟩
  · have hnone : t.toList.find? (·.1 == k) = none :=
      List.find?_eq_none.mpr (List.any_eq_false.mp h.any_toList)
    rw [h.get?, hnone]
    rfl
  · rw [h.get?, h.find?_toList]
    rfl

theorem contains_eq_any (t : SlotTable K V) (k : Instance K) :
    t.contains k = t.toList.any (·.1 == k) := by
  unfold contains
  rcases t.absent_or_placed k with h | ⟨before, e, after, h⟩
  · rw [h.place?, h.any_toList]
    rfl
  · rw [h.place?, h.any_toList]
    rfl

theorem absent_iff (t : SlotTable K V) (k : Instance K) : t.Absent k ↔ t.contains k = false := by
  rw [contains_eq_any]
  refine ⟨Absent.any_toList, fun h => (t.absent_or_placed k).resolve_right ?_⟩
  rintro ⟨before, e, after, hp⟩
  rw [hp.any_toList] at h
  cases h

/-- The slots are cut at the first free one. -/
structure Vacant (t : SlotTable K V) (before after : List (Option (Instance K × V))) : Prop where
  slots : t.slots = before ++ none :: after
  first : ∀ s ∈ before, s.isNone = false

theorem Vacant.toList_eq {t : SlotTable K V} {before after : List (Option (Instance K × V))}
    (h : t.Vacant before after) : t.toList = before.filterMap id ++ after.filterMap id := by
  unfold toList
  rw [h.slots]
  exact filterMap_cut before none after

theorem Vacant.free? {t : SlotTable K V} {before after : List (Option (Instance K × V))}
    (h : t.Vacant before after) : t.free? = some before.length := by
  unfold SlotTable.free?
  rw [h.slots]
  exact findIdx?_of_first rfl h.first after

/-- A new instance takes the first free slot. -/
theorem Vacant.insert {t : SlotTable K V} {before after : List (Option (Instance K × V))}
    (h : t.Vacant before after) {k : Instance K} (hk : t.Absent k) (v : V) :
    t.insert k v = .ok ⟨⟨before ++ some (k, v) :: after, t.count + 1⟩, none⟩ := by
  simp [SlotTable.insert, hk.place?, h.free?, h.slots]

theorem free?_cases (t : SlotTable K V) :
    (t.free? = none ∧ t.toList.length = t.capacity) ∨ ∃ before after, t.Vacant before after := by
  rcases none_or_first (·.isNone) t.slots with hall | ⟨before, s, after, hslots, hs, hfirst⟩
  · refine .inl ⟨List.findIdx?_eq_none_iff.mpr hall, ?_⟩
    unfold toList capacity
    rw [List.length_filterMap_eq_countP, List.countP_eq_length]
    intro s hs
    simpa using hall s hs
  · obtain rfl : s = none := by simpa using hs
    exact .inr ⟨before, after, hslots, hfirst⟩

/-- An insertion overwrites the slot of the instance, or takes the first free one, or is turned
away. -/
theorem insert_cases (t : SlotTable K V) (k : Instance K) (v : V) :
    (∃ before e after, t.Placed k before e after ∧
      t.insert k v = .ok ⟨⟨t.slots.set before.length (some (k, v)), t.count⟩, some e.2⟩) ∨
    (t.Absent k ∧ ∃ before after, t.Vacant before after ∧
      t.insert k v = .ok ⟨⟨before ++ some (k, v) :: after, t.count + 1⟩, none⟩) ∨
    (t.Absent k ∧ t.toList.length = t.capacity ∧ t.insert k v = .error ⟨k, v, t.capacity⟩) := by
  rcases t.absent_or_placed k with h | ⟨before, e, after, h⟩
  · rcases t.free?_cases with ⟨hfree, hfull⟩ | ⟨before, after, hvacant⟩
    · refine .inr (.inr ⟨h, hfull, ?_⟩)
      simp only [insert, h.place?, hfree]
    · exact .inr (.inl ⟨h, before, after, hvacant, hvacant.insert h v⟩)
  · refine .inl ⟨before, e, after, h, ?_⟩
    simp only [insert, h.place?, h.valueAt?]

theorem erase_cases (t : SlotTable K V) (k : Instance K) :
    (∃ before e after, t.Placed k before e after ∧
      t.erase k = ⟨⟨before ++ none :: after, t.count - 1⟩, some e.2⟩) ∨
    (t.Absent k ∧ t.erase k = ⟨t, none⟩) := by
  unfold erase
  rcases t.absent_or_placed k with h | ⟨before, e, after, h⟩
  · refine .inr ⟨h, ?_⟩
    simp only [h.place?]
  · refine .inl ⟨before, e, after, h, ?_⟩
    simp only [h.place?, h.valueAt?]
    simp [h.slots]

/-! ### Entries without gaps -/

/-- The entries in the first slots, and free ones behind them. -/
def packed (l : List (Instance K × V)) (room : Nat) : SlotTable K V :=
  ⟨l.map some ++ List.replicate room none, l.length⟩

@[simp] theorem toList_packed (l : List (Instance K × V)) (room : Nat) :
    (packed l room).toList = l := by
  simp [packed, toList]

@[simp] theorem capacity_packed (l : List (Instance K × V)) (room : Nat) :
    (packed l room).capacity = l.length + room := by
  simp [packed, capacity]

/-- A copy of another capacity is refused because it is too small, or else because it is to have no
slot; otherwise the entries are packed in it. -/
theorem resized_cases {t : SlotTable K V} (h : t.count = t.toList.length) (n : Nat) :
    (n < t.count ∧ t.resized n = .error (.tooFewSlots t.count n)) ∨
    (t.count = 0 ∧ n = 0 ∧ t.resized n = .error .noSlots) ∨
    (t.count ≤ n ∧ 0 < n ∧ t.resized n = .ok (packed t.toList (n - t.count))) := by
  unfold resized
  by_cases hfits : n < t.count
  · exact .inl ⟨hfits, if_pos hfits⟩
  · rw [if_neg hfits]
    by_cases hnone : n = 0
    · exact .inr (.inl ⟨by omega, hnone, if_pos hnone⟩)
    · have htake : t.toList.take n = t.toList := List.take_of_length_le (by omega)
      refine .inr (.inr ⟨by omega, by omega, ?_⟩)
      simp only [hnone, ↓reduceIte, htake, List.length_map, ← h, packed]

end SlotTable

end WorkTracking
