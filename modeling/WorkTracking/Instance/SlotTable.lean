import WorkTracking.Instance.Registry
import WorkTracking.Report
import WorkTracking.Settings

/-!
Slot tables: values under instances in a fixed number of slots. Removal leaves a gap; a new instance
takes the first free slot, and is turned away when there is none.
-/
namespace WorkTracking

/-- `count` is the number of slots taken. -/
structure SlotTable (K V : Type) where
  slots : List (Option (Instance K × V))
  count : Nat

/-- What was turned away, and by how large a table. -/
structure Rejection (K V : Type) where
  key : Instance K
  value : V
  capacity : Nat

namespace Rejection

variable {K V : Type}

def message (r : Rejection K V) : String :=
  "bounded identity map is full (" ++ toString r.capacity ++ " entries)"

/-- Neither the value nor the payload of the instance is shown. -/
def quoted (r : Rejection K V) : String :=
  Text.openRecord "CapacityExceeded"
    [("key_addr", r.key.address), ("max_size", toString r.capacity)]

def notice (r : Rejection K V) : Log.Notice :=
  ⟨.debug, "bounded identity map full; insert rejected", [("max_size", .number r.capacity)]⟩

end Rejection

namespace SlotTable

variable {K V : Type}

def capacity (t : SlotTable K V) : Nat := t.slots.length

def isEmpty (t : SlotTable K V) : Bool := t.count == 0

/-- The entries, in the order of their slots. -/
def toList (t : SlotTable K V) : List (Instance K × V) := t.slots.filterMap id

def values (t : SlotTable K V) : List V := t.toList.map Prod.snd

def blank (capacity : Nat) : SlotTable K V := ⟨List.replicate capacity none, 0⟩

def ofCapacity (capacity : Nat) : Except Fault (SlotTable K V) :=
  if capacity = 0 then .error .noSlots else .ok (blank capacity)

def ofSettings (s : Settings) : Except Fault (SlotTable K V) := ofCapacity s.boundedCapacity

/-- A table with as many slots as the settings provide when nothing is set. -/
def standard : SlotTable K V := blank ({} : Settings).boundedCapacity

def holds (k : Instance K) (slot : Option (Instance K × V)) : Bool := slot.any (·.1 == k)

/-- The slot of an instance. -/
def place? (t : SlotTable K V) (k : Instance K) : Option Nat := t.slots.findIdx? (holds k)

def free? (t : SlotTable K V) : Option Nat := t.slots.findIdx? (·.isNone)

/-- The value in a slot. -/
def valueAt? (t : SlotTable K V) (i : Nat) : Option V := (t.slots[i]?).join.map Prod.snd

def get? (t : SlotTable K V) (k : Instance K) : Option V := (t.place? k).bind t.valueAt?

def contains (t : SlotTable K V) (k : Instance K) : Bool := (t.place? k).isSome

def containsValue [BEq V] (t : SlotTable K V) (v : V) : Bool := t.values.any (· == v)

/-- A table after a change to the entry of one instance, and the value it had before. -/
structure Update (K V : Type) where
  table : SlotTable K V
  previous : Option V

/-- A present instance keeps its slot, so it is never turned away. -/
def insert (t : SlotTable K V) (k : Instance K) (v : V) : Except (Rejection K V) (Update K V) :=
  match t.place? k with
  | some i => .ok ⟨{ t with slots := t.slots.set i (some (k, v)) }, t.valueAt? i⟩
  | none =>
    match t.free? with
    | some i => .ok ⟨⟨t.slots.set i (some (k, v)), t.count + 1⟩, none⟩
    | none => .error { key := k, value := v, capacity := t.capacity }

def erase (t : SlotTable K V) (k : Instance K) : Update K V :=
  match t.place? k with
  | some i => ⟨⟨t.slots.set i none, t.count - 1⟩, t.valueAt? i⟩
  | none => ⟨t, none⟩

def clear (t : SlotTable K V) : SlotTable K V := ⟨t.slots.map fun _ => none, 0⟩

/-- The entries without gaps in a table of another capacity. -/
def resized (t : SlotTable K V) (capacity : Nat) : Except Fault (SlotTable K V) :=
  if capacity < t.count then .error (.tooFewSlots t.count capacity)
  else if capacity = 0 then .error .noSlots
  else
    let packed := (t.toList.take capacity).map some
    .ok ⟨packed ++ List.replicate (capacity - packed.length) none, t.count⟩

/-- A registry with the entries of the table, in the order of their slots. -/
def toRegistry (id : Nat) (t : SlotTable K V) : Registry K V := .ofList id t.toList

/-- Instances are shown by their values alone. -/
def quoted [Rendered K] [Rendered V] (t : SlotTable K V) : String :=
  Text.mapping (t.toList.map fun e => (Rendered.quoted e.1.payload, Rendered.quoted e.2))

end SlotTable

end WorkTracking
