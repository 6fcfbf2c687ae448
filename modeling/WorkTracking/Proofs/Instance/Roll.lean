import WorkTracking.Proofs.Instance.Slots
import WorkTracking.Proofs.Instance.Snapshots

/-!
Registries as rolls. A roll is a list of entries in the order in which their instances came in, and
tells the instances by their identities alone. Every registry there can be answers as the roll of
the calls that it was made by.
-/
namespace WorkTracking

open Instance (Reply byIdentity)

variable {K V : Type}

/-- What can be seen of a reply. Of a snapshot that is its entries. -/
def Instance.Reply.shown : Reply K V → Reply K V
  | .snapshot s => .entries s.entries
  | reply => reply

/-! ### Rolls -/

/-- Entries in the order in which their instances came in. -/
structure Roll (K V : Type) where
  entries : List (Instance K × V) := []

namespace Roll

def value? (l : Roll K V) (k : Instance K) : Option V := (byIdentity l.entries).lookup k.id

def has (l : Roll K V) (k : Instance K) : Bool := (byIdentity l.entries).any (·.1 == k.id)

/-- Every entry keeps its place, and the one of `k` gets another value. -/
def change (l : Roll K V) (k : Instance K) (v : V) : Roll K V :=
  ⟨l.entries.map fun e => if e.1.id == k.id then (e.1, v) else e⟩

def insert (l : Roll K V) (k : Instance K) (v : V) : Roll K V :=
  if l.has k then l.change k v else ⟨l.entries ++ [(k, v)]⟩

def insertAll (l : Roll K V) (es : List (Instance K × V)) : Roll K V :=
  es.foldl (fun l e => l.insert e.1 e.2) l

def erase (l : Roll K V) (k : Instance K) : Roll K V := ⟨l.entries.filter (·.1.id != k.id)⟩

def after (l : Roll K V) : Registry.Call K V → Roll K V
  | .command (.insert k v) => l.insert k v
  | .command (.insertAll es) => l.insertAll es
  | .command (.write k v) => l.change k v
  | .command (.erase k) => l.erase k
  | .command .clear => {}
  | .command (.touch _) => l
  | .command .snapshot => l
  | .query _ => l

def run (l : Roll K V) (cs : List (Registry.Call K V)) : Roll K V := cs.foldl after l

variable [BEq K] [BEq V] [Rendered K] [Rendered V]

/-- Whatever is asked, the list of entries is what is told about. -/
def reply (l : Roll K V) : Registry.Call K V → Reply K V
  | .command (.insert k _) => .value (l.value? k)
  | .command (.insertAll es) => .number (l.insertAll es).entries.length
  | .command (.write k _) => .value (l.value? k)
  | .command (.touch k) => .flag (l.has k)
  | .command (.erase k) => .value (l.value? k)
  | .command .clear => .done
  | .command .snapshot => .entries l.entries
  | .query (.get k) => .value (l.value? k)
  | .query (.contains k) => .flag (l.has k)
  | .query (.containsValue v) => .flag (l.entries.any (·.2 == v))
  | .query .size => .number l.entries.length
  | .query .isEmpty => .flag (l.entries.length == 0)
  | .query .keys => .keys (l.entries.map Prod.fst)
  | .query .values => .countedValues (l.entries.map Prod.snd)
  | .query .entries => .entries l.entries
  | .query .quoted =>
    .text (Text.mapping (l.entries.map fun e => (Rendered.quoted e.1, Rendered.quoted e.2)))
  | .query .entrySet =>
    let es : List (Entry K V) := l.entries.map fun e => ⟨e.1, e.2⟩
    .entrySet (es.map fun e => (e, e.quoted)) es.eraseDups.length
  | .query .keySet => .refused (.unsupported .registry .keySet)

/-- The replies to calls made one after another. -/
def transcript (l : Roll K V) : List (Registry.Call K V) → List (Reply K V)
  | [] => []
  | c :: cs => l.reply c :: (l.after c).transcript cs

end Roll

namespace Registry

section Reply

variable [BEq K] [BEq V] [Rendered K] [Rendered V]

def reply (r : Registry K V) : Call K V → Reply K V
  | .command c => (r.perform c).reply
  | .query q => r.answer q

/-- What the replies to calls made one after another show. -/
def transcript (r : Registry K V) : List (Call K V) → List (Reply K V)
  | [] => []
  | c :: cs => (r.reply c).shown :: (r.after c).transcript cs

end Reply

/-- The registry holds the entries of the roll, in its order. -/
structure Lists (r : Registry K V) (l : Roll K V) : Prop where
  entries : r.toList = l.entries
  coherent : r.Coherent

namespace Lists

variable {r : Registry K V} {l : Roll K V}

theorem get? (h : r.Lists l) (k : Instance K) : r.get? k = l.value? k := by
  rw [get?_eq_find?, h.entries, Roll.value?, Instance.lookup_byIdentity]

theorem contains (h : r.Lists l) (k : Instance K) : r.contains k = l.has k := by
  rw [contains_eq_any, h.entries, Roll.has, Instance.any_byIdentity]

theorem map_change (h : r.Lists l) (k : Instance K) (v : V) :
    (r.toList.map fun e => if e.1 == k then (e.1, v) else e) = (l.change k v).entries := by
  rw [h.entries]
  rfl

theorem insert (h : r.Lists l) (k : Instance K) (v : V) :
    (r.insert k v).registry.toList = (l.insert k v).entries := by
  rw [toList_insert, h.contains, h.map_change, Roll.insert, h.entries]
  split <;> rfl

theorem insertAll (h : r.Lists l) (es : List (Instance K × V)) :
    (r.insertAll es).toList = (l.insertAll es).entries := by
  induction es generalizing r l with
  | nil => exact h.entries
  | cons e es ih => exact ih ⟨h.insert e.1 e.2, h.coherent.after (.command (.insert e.1 e.2))⟩

theorem write (h : r.Lists l) (k : Instance K) (v : V) :
    (r.modify k fun _ => v).registry.toList = (l.change k v).entries := by
  rw [toList_modify, h.map_change]

theorem touch (h : r.Lists l) (k : Instance K) :
    (r.modify k fun v => v).registry.toList = l.entries := by
  rw [toList_modify, ← h.entries]
  simp

theorem erase (h : r.Lists l) (k : Instance K) :
    (r.erase k).registry.toList = (l.erase k).entries := by
  rw [toList_erase, r.keyed_toList.eraseP_eq_filter, h.entries]
  rfl

/-- One call leads to the entries of the same roll again. -/
theorem after (h : r.Lists l) (c : Call K V) : (r.after c).Lists (l.after c) := by
  refine ⟨?_, h.coherent.after c⟩
  cases c with
  | query q => exact h.entries
  | command c =>
    cases c with
    | insert k v => exact h.insert k v
    | insertAll es => exact h.insertAll es
    | write k v => exact h.write k v
    | touch k => exact h.touch k
    | erase k => exact h.erase k
    | clear => rfl
    | snapshot =>
      -- another snapshot may be kept from now on, but the entries are the same
      exact h.coherent.snapshot.2.2.2.trans h.entries

theorem run (h : r.Lists l) (cs : List (Call K V)) : (r.run cs).Lists (l.run cs) := by
  induction cs generalizing r l with
  | nil => exact h
  | cons c cs ih => exact ih (h.after c)

theorem ofList (id : Nat) (given : List (Instance K × V)) :
    (ofList id given).Lists (Roll.insertAll {} given) where
  entries := insertAll ⟨rfl, coherent_of_not_cached rfl⟩ given
  coherent := coherent_ofList id given

variable [BEq K] [BEq V] [Rendered K] [Rendered V]

theorem answer (h : r.Lists l) (q : Query (Instance K) V) : r.answer q = l.reply (.query q) := by
  cases q with
  | get k => exact congrArg Reply.value (h.get? k)
  | contains k => exact congrArg Reply.flag (h.contains k)
  | containsValue v =>
    rw [Roll.reply, ← h.entries]
    exact congrArg Reply.flag List.any_map
  | isEmpty =>
    rw [Roll.reply, ← h.entries]
    apply congrArg Reply.flag
    change r.toList.isEmpty = _
    cases r.toList <;> rfl
  | size | keys | values | entries | quoted | entrySet =>
    rw [Roll.reply, ← h.entries]
    rfl
  | keySet => rfl

theorem reply (h : r.Lists l) (c : Call K V) : (r.reply c).shown = l.reply c := by
  cases c with
  | query q =>
    rw [← h.answer q]
    cases q <;> rfl
  | command c =>
    cases c with
    | insert k v => exact congrArg Reply.value (h.get? k)
    | insertAll es => exact congrArg (Reply.number ·.length) (h.insertAll es)
    | write k v => exact congrArg Reply.value ((r.previous_modify k _).trans (h.get? k))
    | touch k =>
      rw [Roll.reply, ← h.contains, contains_eq_isSome, ← r.previous_modify k fun v => v]
      rfl
    | erase k => exact congrArg Reply.value ((r.previous_erase k).trans (h.get? k))
    | clear => rfl
    | snapshot => exact congrArg Reply.entries (h.coherent.snapshot.2.2.1.trans h.entries)

theorem transcript (h : r.Lists l) (cs : List (Call K V)) :
    r.transcript cs = l.transcript cs := by
  induction cs generalizing r l with
  | nil => rfl
  | cons c cs ih =>
    rw [Registry.transcript, Roll.transcript, h.reply c, ih (h.after c)]

end Lists

/-! ### Laws of identity -/

theorem get?_insert (r : Registry K V) (k j : Instance K) (v : V) :
    (r.insert k v).registry.get? j = if k == j then some v else r.get? j :=
  r.entries.get?_insert k j v

theorem get?_modify_of_ne (r : Registry K V) {k j : Instance K} (h : (k == j) = false)
    (change : V → V) : (r.modify k change).registry.get? j = r.get? j := by
  unfold modify
  split
  next v _ => exact (r.get?_insert k j (change v)).trans (by simp [h])
  next => rfl

theorem get?_erase (r : Registry K V) (k j : Instance K) :
    (r.erase k).registry.get? j = if k == j then none else r.get? j := by
  rw [get?_eq_find?, toList_erase, OrderedMap.find?_eraseP r.keyed_toList, get?_eq_find?]
  split <;> rfl

/-- The list is cut at the entry of a present instance. -/
structure Cut (r : Registry K V) (k : Instance K) (before : List (Instance K × V))
    (e : Instance K × V) (after : List (Instance K × V)) : Prop where
  toList : r.toList = before ++ e :: after
  key : e.1 == k
  first : before.any (·.1 == k) = false

theorem exists_cut {r : Registry K V} {k : Instance K} (h : r.contains k = true) :
    ∃ before e after, r.Cut k before e after := by
  rcases none_or_first (fun e => e.1 == k) r.toList with hnone | ⟨before, e, after, hl, he, hfirst⟩
  · rw [contains_eq_any, List.any_eq_true] at h
    obtain ⟨e, hmem, hkey⟩ := h
    rw [hnone e hmem] at hkey
    cases hkey
  · exact ⟨before, e, after, hl, he, List.any_eq_false.mpr fun d hd => by simp [hfirst d hd]⟩

namespace Cut

variable {r : Registry K V} {k : Instance K} {before after : List (Instance K × V)}
  {e : Instance K × V}

theorem get? (h : r.Cut k before e after) : r.get? k = some e.2 := by
  rw [get?_eq_find?, h.toList, OrderedMap.find?_of_first h.first h.key]
  rfl

theorem insert (h : r.Cut k before e after) (v : V) :
    (r.insert k v).registry.toList = before ++ (e.1, v) :: after := by
  change OrderedMap.write k v r.toList = _
  rw [h.toList, OrderedMap.write_of_first h.first h.key]

theorem modify (h : r.Cut k before e after) (change : V → V) :
    (r.modify k change).registry.toList = before ++ (e.1, change e.2) :: after := by
  rw [Registry.modify, h.get?]
  exact h.insert (change e.2)

theorem erase (h : r.Cut k before e after) :
    (r.erase k).registry.toList = before ++ after := by
  rw [toList_erase, h.toList, OrderedMap.eraseP_of_first h.first h.key]

end Cut

/-- The registry is an association list with one entry for an instance. Instances with equal values
are as different as any others. -/
structure KeyedByIdentity (r : Registry K V) : Prop where
  distinct : (r.toList.map (·.1.id)).Nodup
  get?_eq_some_iff : ∀ k v, r.get? k = some v ↔ ∃ e ∈ r.toList, e.1.id = k.id ∧ e.2 = v
  contains_iff : ∀ k, r.contains k = true ↔ ∃ e ∈ r.toList, e.1.id = k.id
  /-- Looking for the identity of an instance, and only among the entries under its hash, finds what
  looking for the instance does. -/
  probed : ∀ k, r.get? k = ((r.toList.filter fun e => hash e.1 == hash (Probe.of k)).find?
    fun e => (Probe.of k).finds e.1).map Prod.snd
  /-- The entry of a present instance changes in its place, or is taken out from there. -/
  present : ∀ k, r.contains k = true → ∃ before e after,
    r.toList = before ++ e :: after ∧ e.1.id = k.id ∧
    (∀ v, (r.insert k v).previous = some e.2 ∧
      (r.insert k v).registry.toList = before ++ (e.1, v) :: after) ∧
    (∀ change, (r.modify k change).previous = some e.2 ∧
      (r.modify k change).registry.toList = before ++ (e.1, change e.2) :: after) ∧
    (r.erase k).previous = some e.2 ∧ (r.erase k).registry.toList = before ++ after
  absent : ∀ k, r.contains k = false →
    (∀ v, (r.insert k v).previous = none ∧
      (r.insert k v).registry.toList = r.toList ++ [(k, v)]) ∧
    (∀ change, r.modify k change = ⟨r, none⟩) ∧ r.erase k = ⟨r, none⟩
  /-- An instance that was taken out comes back at the end. -/
  comeback : ∀ k v, ((r.erase k).registry.insert k v).registry.toList =
    (r.erase k).registry.toList ++ [(k, v)]
  others : ∀ k j, k.id ≠ j.id →
    (∀ v, (r.insert k v).registry.get? j = r.get? j) ∧
    (∀ change, (r.modify k change).registry.get? j = r.get? j) ∧
    (r.erase k).registry.get? j = r.get? j

theorem keyedByIdentity (r : Registry K V) : r.KeyedByIdentity where
  distinct := r.nodup_ids
  get?_eq_some_iff k v := by
    simp [get?_eq_find?, r.keyed_toList.find?_eq_some_iff, and_assoc]
  contains_iff k := by simp [contains_eq_any]
  probed k := by
    rw [Probe.find?_filter_hash]
    simp only [Probe.finds_of]
    exact r.get?_eq_find? k
  present k h := by
    obtain ⟨before, e, after, hcut⟩ := exists_cut h
    exact ⟨before, e, after, hcut.toList, (Instance.beq_iff_id _ _).mp hcut.key,
      fun v => ⟨hcut.get?, hcut.insert v⟩,
      fun change => ⟨(r.previous_modify k change).trans hcut.get?, hcut.modify change⟩,
      (r.previous_erase k).trans hcut.get?, hcut.erase⟩
  absent k h := by
    have hnone := get?_of_absent h
    refine ⟨fun v => ⟨hnone, toList_insert_of_absent h v⟩, fun change => ?_, ?_⟩
    · rw [modify, hnone]
    · rw [erase, hnone]
  comeback k v := by
    apply toList_insert_of_absent
    rw [contains_eq_isSome, get?_erase]
    simp
  others k j h := by
    have hne : (k == j) = false := by simp [Instance.beq_eq_id, h]
    refine ⟨fun v => ?_, fun change => r.get?_modify_of_ne hne change, ?_⟩
    · rw [get?_insert, hne]
      rfl
    · rw [get?_erase, hne]
      rfl

/-- The registry was made of a list of entries, and calls have made it what it is. -/
def Made (r : Registry K V) : Prop := ∃ id given calls, r = (ofList id given).run calls

theorem Made.after {r : Registry K V} (h : r.Made) (c : Call K V) : (r.after c).Made := by
  obtain ⟨id, given, calls, rfl⟩ := h
  refine ⟨id, given, calls ++ [c], ?_⟩
  unfold run
  rw [List.foldl_append]
  rfl

end Registry

/-! ### Registries under a name -/

namespace Instance.Workspace

/-- Every registry was made of a list of entries and by calls. -/
def AllMade (w : Workspace K V) : Prop := ∀ name r, w.registries.get? name = some r → r.Made

theorem allMade_empty : ({} : Workspace K V).AllMade := by
  intro name r h
  simp at h

namespace AllMade

variable {w : Workspace K V}

theorem insert (h : w.AllMade) {w' : Workspace K V} {name : String} {r : Registry K V}
    (hr : r.Made) (hw : w'.registries = w.registries.insert name r) : w'.AllMade := by
  intro other s hs
  rw [hw, OrderedMap.get?_insert] at hs
  split at hs
  · cases hs
    exact hr
  · exact h other s hs

theorem step (h : w.AllMade) (c : Command K V) : (w.step c).AllMade := by
  cases w.step_effect c with
  | kept hr _ =>
    unfold AllMade
    rw [hr]
    exact h
  | made name id given hr _ => exact h.insert ⟨id, given, [], rfl⟩ hr
  | called name call hget hr _ => exact h.insert ((h name _ hget).after (.command call)) hr
  | snapped e name _ hget hr _ => exact h.insert ((h name _ hget).after (.command .snapshot)) hr

theorem run (h : w.AllMade) (cs : List (Command K V)) : (w.run cs).AllMade := by
  induction cs generalizing w with
  | nil => exact h
  | cons c cs ih => exact ih (h.step c)

end AllMade

end Instance.Workspace

namespace Registry

variable [BEq K] [BEq V] [Rendered K] [Rendered V]

/-- Whatever a registry is made of and whatever calls are made to it, it replies as the roll of the
same entries and calls, lists the entries of that roll, and is keyed by identity. There is no
registry under a name in a workspace that came about in another way. -/
theorem behaves_as_roll (id : Nat) (given : List (Instance K × V)) (calls : List (Call K V)) :
    let start := Roll.insertAll {} given
    let r := (ofList id given).run calls
    let l := start.run calls
    (ofList id given).transcript calls = start.transcript calls ∧
    r.toList = l.entries ∧ (∀ q, r.answer q = l.reply (.query q)) ∧ r.KeyedByIdentity ∧
    ∀ cs : List (Instance.Command K V), (({} : Instance.Workspace K V).run cs).AllMade := by
  intro start r l
  have hstart : (ofList id given).Lists start := Lists.ofList id given
  have hend : r.Lists l := hstart.run calls
  exact ⟨hstart.transcript calls, hend.entries, hend.answer, r.keyedByIdentity,
    Instance.Workspace.allMade_empty.run⟩

/-- Two instances of equal values: one gets another value in its place, then comes back last. -/
example :
    let a : Instance Nat := ⟨0, "a", 5⟩
    let b : Instance Nat := ⟨1, "b", 5⟩
    let overwritten := (ofList 0 [(a, 1), (b, 2)]).run [.command (.insert a 3)]
    overwritten.toList = [(a, 3), (b, 2)] ∧
      (overwritten.run [.command (.erase a), .command (.insert a 4)]).toList =
        [(b, 2), (a, 4)] := by
  cbv

end Registry

end WorkTracking
