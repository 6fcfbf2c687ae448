import WorkTracking.Instance.Basic
import WorkTracking.OrderedMap
import WorkTracking.Text.Printed

/-!
Registries: values under instances, in the order in which the instances came in. A registry hands
out snapshots of its entries, and hands out the same one until it changes or may have changed.
-/
namespace WorkTracking

/-- `registry` and `making` tell snapshots apart, also those with equal entries. -/
structure Snapshot (K V : Type) where
  registry : Nat
  making : Nat
  entries : List (Instance K × V)

namespace Snapshot

variable {K V : Type}

def same (a b : Snapshot K V) : Bool := a.registry == b.registry && a.making == b.making

end Snapshot

/-- `makings` counts the snapshots made so far; `cached` is the latest one while it is valid. -/
structure Registry (K V : Type) where
  id : Nat
  entries : OrderedMap (Instance K) V := .empty
  cached : Option (Snapshot K V) := none
  makings : Nat := 0

/-- An entry on its own. Unlike entries inside a registry, it is compared by value. -/
structure Entry (K V : Type) where
  key : Instance K
  value : V

namespace Entry

variable {K V : Type}

instance [BEq K] [BEq V] : BEq (Entry K V) :=
  ⟨fun a b => a.key.payload == b.key.payload && a.value == b.value⟩

def quoted [Rendered K] [Rendered V] (e : Entry K V) : String :=
  Text.record "IdentityEntry"
    [("key", Rendered.quoted e.key.payload), ("value", Rendered.quoted e.value)]

end Entry

namespace Registry

variable {K V : Type}

def toList (r : Registry K V) : List (Instance K × V) := r.entries.entries

def size (r : Registry K V) : Nat := r.entries.size

def isEmpty (r : Registry K V) : Bool := r.entries.isEmpty

def keys (r : Registry K V) : List (Instance K) := r.entries.keys

def values (r : Registry K V) : List V := r.entries.values

def get? (r : Registry K V) (k : Instance K) : Option V := r.entries.get? k

def contains (r : Registry K V) (k : Instance K) : Bool := r.entries.contains k

def containsValue [BEq V] (r : Registry K V) (v : V) : Bool := r.values.any (· == v)

/-- A registry after a change to the entry of one instance, and the value it had before. -/
structure Update (K V : Type) where
  registry : Registry K V
  previous : Option V

/-- Any insertion ends the validity of the snapshot, also that of an equal value. -/
def insert (r : Registry K V) (k : Instance K) (v : V) : Update K V where
  registry := { r with entries := r.entries.insert k v, cached := none }
  previous := r.get? k

def insertAll (r : Registry K V) (l : List (Instance K × V)) : Registry K V :=
  l.foldl (fun r e => (r.insert e.1 e.2).registry) r

def ofList (id : Nat) (l : List (Instance K × V)) : Registry K V :=
  insertAll { id } l

/-- Opens the entry of a present instance to change. The snapshot loses its validity even if the
value stays; an absent instance changes nothing. -/
def modify (r : Registry K V) (k : Instance K) (change : V → V) : Update K V :=
  match r.get? k with
  | some v =>
    { registry := { r with entries := r.entries.insert k (change v), cached := none }
      previous := some v }
  | none => { registry := r, previous := none }

/-- The order of the other entries stays. -/
def erase (r : Registry K V) (k : Instance K) : Update K V :=
  match r.get? k with
  | some v =>
    { registry := { r with entries := r.entries.erase k, cached := none }, previous := some v }
  | none => { registry := r, previous := none }

/-- Ends the validity of the snapshot even if there is nothing to clear. -/
def clear (r : Registry K V) : Registry K V := { r with entries := .empty, cached := none }

/-- A registry after a snapshot was asked for, and the snapshot. -/
structure Snapped (K V : Type) where
  registry : Registry K V
  snapshot : Snapshot K V

def snapshot (r : Registry K V) : Snapped K V :=
  match r.cached with
  | some s => { registry := r, snapshot := s }
  | none =>
    let s : Snapshot K V := { registry := r.id, making := r.makings, entries := r.toList }
    { registry := { r with cached := some s, makings := r.makings + 1 }, snapshot := s }

/-- The entries on their own. -/
def entrySet (r : Registry K V) : List (Entry K V) := r.toList.map fun e => ⟨e.1, e.2⟩

/-- The number of entries that differ by value. -/
def distinctEntries [BEq K] [BEq V] (r : Registry K V) : Nat := r.entrySet.eraseDups.length

def quoted [Rendered K] [Rendered V] (r : Registry K V) : String :=
  Text.mapping (r.toList.map fun e => (Rendered.quoted e.1, Rendered.quoted e.2))

end Registry

end WorkTracking
