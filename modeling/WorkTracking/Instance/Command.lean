import WorkTracking.Instance.SlotTable

/-!
What can be done with one registry or one slot table. A `Command` may change it, a `Query` only
reads it. Both are given instances, or, before these have been found, whatever they are asked for
by: that is the parameter `H`, and `mapM` replaces it.
-/
namespace WorkTracking

namespace Instance

/-- How two instances compare, and how the first one is printed. -/
structure Comparison (K : Type) where
  first : Instance K
  second : Instance K
  same : Bool
  sameAddress : Bool
  sameHash : Bool
  sameValue : Bool
  /-- the first instance against a copy of its handle -/
  sameCopy : Bool
  plain : String
  quoted : String

inductive Reply (K V : Type) where
  | done
  | flag (b : Bool)
  | number (n : Nat)
  | value (v : Option V)
  | verdict (b : Option Bool)
  | keys (ks : List (Instance K))
  | values (vs : List V)
  /-- the values together with their number -/
  | countedValues (vs : List V)
  | entries (es : List (Instance K × V))
  | snapshot (s : Snapshot K V)
  /-- entries on their own, with their quoted forms, and how many of them differ -/
  | entrySet (es : List (Entry K V × String)) (distinct : Nat)
  | text (s : String)
  | comparison (c : Comparison K)
  | settings (s : Settings)
  | refused (fault : Fault)
  | rejected (r : Rejection K V)

end Instance

open Instance (Reply)

namespace Registry

inductive Command (H V : Type) where
  | insert (h : H) (v : V)
  | insertAll (l : List (H × V))
  /-- opens an entry and writes to it -/
  | write (h : H) (v : V)
  /-- opens an entry and writes nothing -/
  | touch (h : H)
  | erase (h : H)
  | clear
  | snapshot

inductive Query (H V : Type) where
  | get (h : H)
  | contains (h : H)
  | containsValue (v : V)
  | size
  | isEmpty
  | keys
  | values
  | entries
  | quoted
  | entrySet
  /-- the keys as a set, which would lose their identities -/
  | keySet

variable {K V : Type}

namespace Command

def mapM {m : Type → Type} [Monad m] {α β : Type} (f : α → m β) : Command α V → m (Command β V)
  | insert h v => return insert (← f h) v
  | insertAll l => return insertAll (← l.mapM fun (h, v) => return (← f h, v))
  | write h v => return write (← f h) v
  | touch h => return touch (← f h)
  | erase h => return erase (← f h)
  | clear => return clear
  | snapshot => return snapshot

end Command

namespace Query

def mapM {m : Type → Type} [Monad m] {α β : Type} (f : α → m β) : Query α V → m (Query β V)
  | get h => return get (← f h)
  | contains h => return contains (← f h)
  | containsValue v => return containsValue v
  | size => return size
  | isEmpty => return isEmpty
  | keys => return keys
  | values => return values
  | entries => return entries
  | quoted => return quoted
  | entrySet => return entrySet
  | keySet => return keySet

end Query

structure Outcome (K V : Type) where
  registry : Registry K V
  reply : Reply K V

def perform (r : Registry K V) : Command (Instance K) V → Outcome K V
  | .insert k v => let u := r.insert k v; ⟨u.registry, .value u.previous⟩
  | .insertAll l => let grown := r.insertAll l; ⟨grown, .number grown.size⟩
  | .write k v => let u := r.modify k fun _ => v; ⟨u.registry, .value u.previous⟩
  | .touch k => let u := r.modify k fun v => v; ⟨u.registry, .flag u.previous.isSome⟩
  | .erase k => let u := r.erase k; ⟨u.registry, .value u.previous⟩
  | .clear => ⟨r.clear, .done⟩
  | .snapshot => let s := r.snapshot; ⟨s.registry, .snapshot s.snapshot⟩

def answer [BEq K] [BEq V] [Rendered K] [Rendered V] (r : Registry K V) :
    Query (Instance K) V → Reply K V
  | .get k => .value (r.get? k)
  | .contains k => .flag (r.contains k)
  | .containsValue v => .flag (r.containsValue v)
  | .size => .number r.size
  | .isEmpty => .flag r.isEmpty
  | .keys => .keys r.keys
  | .values => .countedValues r.values
  | .entries => .entries r.toList
  | .quoted => .text r.quoted
  | .entrySet => .entrySet (r.entrySet.map fun e => (e, e.quoted)) r.distinctEntries
  | .keySet => .refused (.unsupported .registry .keySet)

end Registry

namespace SlotTable

inductive Command (H V : Type) where
  | insert (h : H) (v : V)
  | erase (h : H)
  | clear

inductive Query (H V : Type) where
  | get (h : H)
  | contains (h : H)
  | containsValue (v : V)
  | size
  | capacity
  | isEmpty
  | entries
  | values
  | quoted

variable {K V : Type}

namespace Command

def mapM {m : Type → Type} [Monad m] {α β : Type} (f : α → m β) : Command α V → m (Command β V)
  | insert h v => return insert (← f h) v
  | erase h => return erase (← f h)
  | clear => return clear

end Command

namespace Query

def mapM {m : Type → Type} [Monad m] {α β : Type} (f : α → m β) : Query α V → m (Query β V)
  | get h => return get (← f h)
  | contains h => return contains (← f h)
  | containsValue v => return containsValue v
  | size => return size
  | capacity => return capacity
  | isEmpty => return isEmpty
  | entries => return entries
  | values => return values
  | quoted => return quoted

end Query

structure Outcome (K V : Type) where
  table : SlotTable K V
  reply : Reply K V
  notices : List Log.Notice := []

def perform (t : SlotTable K V) : Command (Instance K) V → Outcome K V
  | .insert k v =>
    match t.insert k v with
    | .ok u => { table := u.table, reply := .value u.previous }
    | .error rejection =>
      { table := t, reply := .rejected rejection, notices := [rejection.notice] }
  | .erase k => let u := t.erase k; { table := u.table, reply := .value u.previous }
  | .clear => { table := t.clear, reply := .done }

def answer [BEq V] [Rendered K] [Rendered V] (t : SlotTable K V) :
    Query (Instance K) V → Reply K V
  | .get k => .value (t.get? k)
  | .contains k => .flag (t.contains k)
  | .containsValue v => .flag (t.containsValue v)
  | .size => .number t.count
  | .capacity => .number t.capacity
  | .isEmpty => .flag t.isEmpty
  | .entries => .entries t.toList
  | .values => .values t.values
  | .quoted => .text t.quoted

end SlotTable

end WorkTracking
