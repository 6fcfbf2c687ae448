import WorkTracking.Instance.SlotTable
import WorkTracking.Proofs.Rekeying

/-!
Other payloads. With the payload of every instance replaced, be it equal ones by different ones or
different ones by equal ones, each operation on a registry or a slot table does what it did.
-/
namespace WorkTracking

variable {K L V : Type}

namespace Instance

/-- The instance with another payload. -/
def map (f : K → L) (a : Instance K) : Instance L where
  id := a.id
  label := a.label
  payload := f a.payload

/-- Instances are told apart without their payloads. -/
def rekeying (f : K → L) : Rekeying (Instance K) (Instance L) := ⟨map f, fun _ _ => rfl⟩

def mapEntry (f : K → L) (e : Instance K × V) : Instance L × V := (e.1.map f, e.2)

end Instance

open Instance (mapEntry rekeying)

/-! ### Registries -/

def Snapshot.map (f : K → L) (s : Snapshot K V) : Snapshot L V where
  registry := s.registry
  making := s.making
  entries := s.entries.map (mapEntry f)

def Entry.map (f : K → L) (e : Entry K V) : Entry L V := ⟨e.key.map f, e.value⟩

namespace Registry

def map (f : K → L) (r : Registry K V) : Registry L V where
  id := r.id
  entries := r.entries.mapKeys (rekeying f)
  cached := r.cached.map (Snapshot.map f)
  makings := r.makings

def Update.map (f : K → L) (u : Update K V) : Update L V := ⟨u.registry.map f, u.previous⟩

def Snapped.map (f : K → L) (s : Snapped K V) : Snapped L V := ⟨s.registry.map f, s.snapshot.map f⟩

variable (f : K → L) (r : Registry K V)

theorem toList_map : (r.map f).toList = r.toList.map (mapEntry f) := rfl

theorem size_map : (r.map f).size = r.size := r.entries.size_map ..

theorem isEmpty_map : (r.map f).isEmpty = r.isEmpty := r.entries.isEmpty_map ..

theorem keys_map : (r.map f).keys = r.keys.map (Instance.map f) := r.entries.keys_map ..

theorem values_map : (r.map f).values = r.values := r.entries.values_mapKeys _

theorem entrySet_map : (r.map f).entrySet = r.entrySet.map (Entry.map f) := by
  simp only [entrySet, toList_map, List.map_map]
  rfl

theorem get?_map (k : Instance K) : (r.map f).get? (k.map f) = r.get? k :=
  r.entries.get?_mapKeys (rekeying f) k

theorem contains_map (k : Instance K) : (r.map f).contains (k.map f) = r.contains k :=
  r.entries.contains_map (rekeying f) _ k

theorem insert_map (k : Instance K) (v : V) :
    (r.map f).insert (k.map f) v = (r.insert k v).map f := by
  have hentries := r.entries.insert_mapKeys (rekeying f) k v
  simp only [insert, Update.map, get?_map]
  simp only [map, ← hentries]
  rfl

theorem insertAll_map (l : List (Instance K × V)) :
    (r.map f).insertAll (l.map (mapEntry f)) = (r.insertAll l).map f := by
  induction l generalizing r with
  | nil => rfl
  | cons e l ih =>
    show ((r.map f).insert (e.1.map f) e.2).registry.insertAll _ = _
    rw [insert_map]
    exact ih _

theorem ofList_map (id : Nat) (l : List (Instance K × V)) :
    ofList id (l.map (mapEntry f)) = (ofList id l).map f :=
  insertAll_map f { id } l

theorem modify_map (k : Instance K) (change : V → V) :
    (r.map f).modify (k.map f) change = (r.modify k change).map f := by
  unfold modify
  rw [get?_map]
  cases r.get? k with
  | none => rfl
  | some v =>
    have hentries := r.entries.insert_mapKeys (rekeying f) k (change v)
    simp only [Update.map, map, ← hentries]
    rfl

theorem erase_map (k : Instance K) : (r.map f).erase (k.map f) = (r.erase k).map f := by
  unfold erase
  rw [get?_map]
  cases r.get? k with
  | none => rfl
  | some v =>
    have hentries := r.entries.erase_mapKeys (rekeying f) k
    simp only [Update.map, map, ← hentries]
    rfl

theorem clear_map : (r.map f).clear = r.clear.map f := rfl

/-- A snapshot is the same one, with other payloads. -/
theorem snapshot_map : (r.map f).snapshot = r.snapshot.map f := by
  cases h : r.cached with
  | none =>
    simp only [snapshot, map, h, Option.map_none]
    rfl
  | some s => simp only [snapshot, map, Snapped.map, h, Option.map_some]

end Registry

/-! ### Slot tables -/

def Rejection.map (f : K → L) (x : Rejection K V) : Rejection L V where
  key := x.key.map f
  value := x.value
  capacity := x.capacity

namespace SlotTable

def map (f : K → L) (t : SlotTable K V) : SlotTable L V where
  slots := t.slots.map (Option.map (mapEntry f))
  count := t.count

def Update.map (f : K → L) (u : Update K V) : Update L V := ⟨u.table.map f, u.previous⟩

variable (f : K → L) (t : SlotTable K V)

theorem toList_map : (t.map f).toList = t.toList.map (mapEntry f) := by
  simp only [toList, map, List.filterMap_map, List.map_filterMap]
  rfl

theorem values_map : (t.map f).values = t.values := by
  simp only [values, toList_map, List.map_map]
  rfl

theorem capacity_map : (t.map f).capacity = t.capacity := List.length_map _

theorem holds_map (k : Instance K) (slot : Option (Instance K × V)) :
    holds (k.map f) (slot.map (mapEntry f)) = holds k slot := by
  cases slot <;> rfl

theorem place?_map (k : Instance K) : (t.map f).place? (k.map f) = t.place? k := by
  simp only [place?, map, List.findIdx?_map]
  congr 1
  funext slot
  exact holds_map f k slot

theorem free?_map : (t.map f).free? = t.free? := by
  simp only [free?, map, List.findIdx?_map]
  congr 1
  funext slot
  cases slot <;> rfl

theorem valueAt?_map (i : Nat) : (t.map f).valueAt? i = t.valueAt? i := by
  simp only [valueAt?, map, List.getElem?_map]
  rcases t.slots[i]? with _ | _ | e <;> rfl

theorem get?_map (k : Instance K) : (t.map f).get? (k.map f) = t.get? k := by
  simp only [get?, place?_map]
  congr 1
  funext i
  exact t.valueAt?_map f i

theorem contains_map (k : Instance K) : (t.map f).contains (k.map f) = t.contains k := by
  simp only [contains, place?_map]

/-- An instance put into a slot, or taken out of it. -/
theorem set_map (i : Nat) (slot : Option (Instance K × V)) (count : Nat) :
    (⟨(t.map f).slots.set i (slot.map (mapEntry f)), count⟩ : SlotTable L V) =
      map f ⟨t.slots.set i slot, count⟩ := by
  simp only [map, List.map_set]

/-- Just those that were turned away are turned away. -/
theorem insert_map (k : Instance K) (v : V) :
    (t.map f).insert (k.map f) v =
      match t.insert k v with
      | .ok u => .ok (u.map f)
      | .error x => .error (x.map f) := by
  unfold insert
  rw [place?_map, free?_map]
  have hset (i : Nat) (count : Nat) := t.set_map f i (some (k, v)) count
  cases t.place? k with
  | some i =>
    simp only [Update.map, valueAt?_map, ← hset]
    rfl
  | none =>
    cases t.free? with
    | some i =>
      simp only [Update.map, ← hset]
      rfl
    | none => simp only [Rejection.map, capacity_map]

theorem erase_map (k : Instance K) : (t.map f).erase (k.map f) = (t.erase k).map f := by
  unfold erase
  rw [place?_map]
  cases t.place? k with
  | none => rfl
  | some i =>
    have hset := t.set_map f i none (t.count - 1)
    simp only [Update.map, valueAt?_map, ← hset]
    rfl

theorem clear_map : (t.map f).clear = t.clear.map f := by
  simp only [clear, map, List.map_map]
  rfl

theorem blank_map (capacity : Nat) : (blank capacity : SlotTable L V) = (blank capacity).map f := by
  simp [blank, map]

theorem ofCapacity_map (capacity : Nat) :
    (ofCapacity capacity : Except Fault (SlotTable L V)) = (ofCapacity capacity).map (map f) := by
  by_cases h : capacity = 0
  · simp [ofCapacity, h, Except.map]
  · simp [ofCapacity, h, Except.map, blank_map f]

theorem resized_map (capacity : Nat) :
    (t.map f).resized capacity = (t.resized capacity).map (map f) := by
  have hcount : (t.map f).count = t.count := rfl
  unfold resized
  rw [toList_map, hcount]
  by_cases hroom : capacity < t.count
  · simp [hroom, Except.map]
  · by_cases hnone : capacity = 0
    · subst hnone
      simp [hroom, Except.map]
    · simp [hroom, hnone, Except.map, map, ← List.map_take, Function.comp_def]

theorem toRegistry_map (id : Nat) : (t.map f).toRegistry id = (t.toRegistry id).map f := by
  rw [toRegistry, toList_map]
  exact Registry.ofList_map f id t.toList

end SlotTable

end WorkTracking
