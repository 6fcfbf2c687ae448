import Mathlib.Data.List.Forall2
import WorkTracking.Instance.Command
import WorkTracking.Proofs.Instance.Entries
import WorkTracking.Proofs.Instance.Slots

/-!
Slot tables as bounded registries. A slot table holds the entries that a registry holds after the
same commands, in another order, when the registry turns away each instance that there is no room
for. The number it keeps is the number of slots taken, whatever gaps there are.
-/
namespace WorkTracking

open Instance (Reply byIdentity)

variable {K V : Type}

/-! ### Commands -/

namespace SlotTable

/-- What a table, or what stands for it, becomes by a command, and what is told about it. -/
structure Response (S K V : Type) where
  state : S
  reply : Reply K V
  notices : List Log.Notice

/-- Two responses say the same, and lead to states of which `R` holds. -/
structure Response.Agree {S T : Type} (R : S → T → Prop) (a : Response S K V)
    (b : Response T K V) : Prop where
  state : R a.state b.state
  reply : a.reply = b.reply
  notices : a.notices = b.notices

def respond (t : SlotTable K V) (c : Command (Instance K) V) : Response (SlotTable K V) K V :=
  let o := t.perform c
  ⟨o.table, o.reply, o.notices⟩

theorem perform_insert_of_ok {t : SlotTable K V} {k : Instance K} {v : V} {u : Update K V}
    (h : t.insert k v = .ok u) : t.perform (.insert k v) = ⟨u.table, .value u.previous, []⟩ := by
  simp [perform, h]

theorem perform_insert_of_error {t : SlotTable K V} {k : Instance K} {v : V} {x : Rejection K V}
    (h : t.insert k v = .error x) : t.perform (.insert k v) = ⟨t, .rejected x, [x.notice]⟩ := by
  simp [perform, h]

end SlotTable

namespace Registry

/-- A registry does what it is told, and gives no notice. -/
def obey (r : Registry K V) (c : Command (Instance K) V) :
    SlotTable.Response (Registry K V) K V :=
  let o := r.perform c
  ⟨o.registry, o.reply, []⟩

/-- A registry with room for `n` instances turns away one more. -/
def respondWithin (n : Nat) (r : Registry K V) :
    SlotTable.Command (Instance K) V → SlotTable.Response (Registry K V) K V
  | .insert k v =>
    if r.contains k = false ∧ r.size = n then
      ⟨r, .rejected ⟨k, v, n⟩, [Rejection.notice ⟨k, v, n⟩]⟩
    else r.obey (.insert k v)
  | .erase k => r.obey (.erase k)
  | .clear => r.obey .clear

end Registry

namespace SlotTable

/-- The slot takes the instance as it is given, a list of entries keeps the one it has: they are one
by identity only. -/
theorem Placed.byIdentity_replace {t : SlotTable K V} {k : Instance K}
    {before after : List (Option (Instance K × V))} {e : Instance K × V}
    (h : t.Placed k before e after) (v : V) :
    byIdentity (toList ⟨t.slots.set before.length (some (k, v)), t.count⟩) =
      OrderedMap.write k.id v (byIdentity t.toList) := by
  have hid : e.1.id = k.id := (Instance.beq_iff_id e.1 k).mp h.key
  rw [(h.replace v).toList_eq, Instance.write_byIdentity, h.toList_eq,
    OrderedMap.write_of_first (any_filterMap_eq_false h.first) h.key]
  simp [byIdentity, hid]

/-- The table has `n` slots, counts those that are taken, and holds what the registry holds. -/
structure Mirrors (n : Nat) (t : SlotTable K V) (r : Registry K V) : Prop where
  capacity : t.capacity = n
  count : t.count = t.toList.length
  entries : (byIdentity t.toList).Perm (byIdentity r.toList)

namespace Mirrors

variable {n : Nat} {t : SlotTable K V} {r : Registry K V} {k : Instance K}
  {before after : List (Option (Instance K × V))} {e : Instance K × V}

theorem keyed (h : Mirrors n t r) : OrderedMap.Keyed (byIdentity t.toList) :=
  r.keyed_byIdentity_toList.of_perm h.entries.symm

theorem get? (h : Mirrors n t r) (k : Instance K) : t.get? k = r.get? k := by
  rw [get?_eq_find?, Registry.get?_eq_find?]
  exact Instance.find?_eq_of_perm h.keyed h.entries k

theorem contains (h : Mirrors n t r) (k : Instance K) : t.contains k = r.contains k := by
  rw [contains_eq_any, Registry.contains_eq_any]
  exact Instance.any_eq_of_perm h.entries k

theorem containsValue [BEq V] (h : Mirrors n t r) (v : V) :
    t.containsValue v = r.containsValue v := by
  have hvalues := (h.entries.map Prod.snd).any_eq (f := (· == v))
  rwa [Instance.map_snd_byIdentity, Instance.map_snd_byIdentity] at hvalues

theorem size (h : Mirrors n t r) : t.count = r.size := by
  have hlength := h.entries.length_eq
  unfold byIdentity at hlength
  rw [List.length_map, List.length_map] at hlength
  rw [h.count, hlength]
  rfl

theorem count_le (h : Mirrors n t r) : t.count ≤ n := by
  rw [h.count, ← h.capacity]
  exact List.length_filterMap_le ..

theorem blank (n id : Nat) : Mirrors n (SlotTable.blank n : SlotTable K V) { id } where
  capacity := List.length_replicate
  count := by simp [SlotTable.blank, toList]
  entries := by simp [SlotTable.blank, toList, Registry.toList, OrderedMap.empty]

/-- A new value in the slot of an instance is a new value in its place in the registry. -/
theorem replace (h : Mirrors n t r) (hp : t.Placed k before e after) (v : V) :
    Mirrors n ⟨t.slots.set before.length (some (k, v)), t.count⟩ (r.insert k v).registry := by
  constructor
  · rw [← h.capacity]
    exact List.length_set
  · rw [(hp.replace v).toList_eq, h.count, hp.toList_eq]
    simp
  · have hperm := h.keyed.write_perm h.entries k.id v
    rw [Instance.write_byIdentity k v r.toList] at hperm
    rw [hp.byIdentity_replace]
    exact hperm

/-- A free slot taken is an entry at the end of the registry. -/
theorem fill (h : Mirrors n t r) (hk : t.Absent k) (hvacant : t.Vacant before after) (v : V) :
    Mirrors n ⟨before ++ some (k, v) :: after, t.count + 1⟩ (r.insert k v).registry := by
  have hmoved : (toList ⟨before ++ some (k, v) :: after, t.count + 1⟩).Perm
      ((k, v) :: t.toList) := by
    rw [toList_taken, hvacant.toList_eq]
    exact List.perm_middle
  constructor
  · rw [← h.capacity, SlotTable.capacity, SlotTable.capacity, hvacant.slots]
    exact length_cut before _ _ after
  · rw [hmoved.length_eq, h.count]
    rfl
  · have habsent : r.contains k = false := by
      rw [← h.contains, ← absent_iff]
      exact hk
    have hlast : ((k.id, v) :: byIdentity r.toList).Perm (byIdentity (r.toList ++ [(k, v)])) := by
      unfold byIdentity
      rw [List.map_append]
      exact (List.perm_append_singleton _ _).symm
    rw [Registry.toList_insert_of_absent habsent]
    exact (hmoved.map _).trans ((h.entries.cons _).trans hlast)

/-- A slot made free is an entry less in the registry. -/
theorem vacate (h : Mirrors n t r) (hp : t.Placed k before e after) :
    Mirrors n ⟨before ++ none :: after, t.count - 1⟩ (r.erase k).registry := by
  have hnew : toList ⟨before ++ none :: after, t.count - 1⟩ = t.toList.eraseP (·.1 == k) := by
    rw [hp.toList_eq, OrderedMap.eraseP_of_first (any_filterMap_eq_false hp.first) hp.key,
      toList_free]
  constructor
  · rw [← h.capacity, SlotTable.capacity, SlotTable.capacity, hp.slots]
    exact length_cut before _ _ after
  · rw [hnew, h.count, List.length_eraseP, hp.any_toList]
    rfl
  · rw [hnew, Registry.toList_erase, ← Instance.eraseP_byIdentity, ← Instance.eraseP_byIdentity]
    exact h.keyed.eraseP_perm h.entries k.id

theorem erase (h : Mirrors n t r) (k : Instance K) :
    Mirrors n (t.erase k).table (r.erase k).registry ∧
      (t.erase k).previous = (r.erase k).previous := by
  rcases t.erase_cases k with ⟨before, e, after, hp, herase⟩ | ⟨hk, herase⟩
  · rw [herase, r.previous_erase, ← h.get?, hp.get?]
    exact ⟨h.vacate hp, rfl⟩
  · have hnone : r.get? k = none := (h.get? k).symm.trans hk.get?
    have hsame : r.erase k = ⟨r, none⟩ := by simp only [Registry.erase, hnone]
    rw [herase, hsame]
    exact ⟨h, rfl⟩

theorem clear (h : Mirrors n t r) : Mirrors n t.clear r.clear where
  capacity := by
    rw [← h.capacity]
    exact List.length_map _
  count := by simp [SlotTable.clear, toList]
  entries := by simp [SlotTable.clear, toList, Registry.clear, Registry.toList, OrderedMap.empty]

theorem count_lt (h : Mirrors n t r) (hvacant : t.Vacant before after) : t.count < n := by
  rw [h.count, ← h.capacity]
  apply List.length_filterMap_lt_length_iff_exists.mpr
  exact ⟨none, by simp [hvacant.slots], rfl⟩

/-- Just an absent instance is turned away, and just by a table that is full. -/
theorem insert_error_iff (h : Mirrors n t r) (k : Instance K) (v : V) :
    (∃ x, t.insert k v = .error x) ↔ t.contains k = false ∧ t.count = n := by
  rcases t.insert_cases k v with ⟨before, e, after, hp, hins⟩ |
    ⟨-, before, after, hvacant, hins⟩ | ⟨hk, hfull, hins⟩
  · rw [contains_eq_any, hp.any_toList, hins]
    simp
  · have hroom := h.count_lt hvacant
    rw [hins]
    refine iff_of_false (by simp) fun hturned => ?_
    omega
  · refine iff_of_true ⟨_, hins⟩ ⟨(t.absent_iff k).mp hk, ?_⟩
    rw [h.count, hfull, h.capacity]

theorem respond_accepted (h : Mirrors n t r) {v : V} {u : Update K V}
    (hins : t.insert k v = .ok u) (hprevious : t.get? k = u.previous)
    (hu : Mirrors n u.table (r.insert k v).registry) :
    (t.respond (.insert k v)).Agree (Mirrors n) (r.respondWithin n (.insert k v)) := by
  have hroom : ¬ (r.contains k = false ∧ r.size = n) := by
    rw [← h.contains, ← h.size, ← h.insert_error_iff k v, hins]
    simp
  rw [SlotTable.respond, perform_insert_of_ok hins, Registry.respondWithin, if_neg hroom]
  exact ⟨hu, congrArg Reply.value (hprevious.symm.trans (h.get? k)), rfl⟩

/-- One command leaves a table and a registry as much alike as before, and they say the same. -/
theorem respond (h : Mirrors n t r) (c : Command (Instance K) V) :
    (t.respond c).Agree (Mirrors n) (r.respondWithin n c) := by
  cases c with
  | insert k v =>
    rcases t.insert_cases k v with ⟨before, e, after, hp, hins⟩ |
      ⟨hk, before, after, hvacant, hins⟩ | ⟨-, -, hins⟩
    · exact h.respond_accepted hins hp.get? (h.replace hp v)
    · exact h.respond_accepted hins hk.get? (h.fill hk hvacant v)
    · have hturned : r.contains k = false ∧ r.size = n := by
        rw [← h.contains, ← h.size, ← h.insert_error_iff k v]
        exact ⟨_, hins⟩
      rw [SlotTable.respond, perform_insert_of_error hins, Registry.respondWithin,
        if_pos hturned, h.capacity]
      exact ⟨h, rfl, rfl⟩
  | erase k =>
    obtain ⟨herased, hprevious⟩ := h.erase k
    exact ⟨herased, congrArg Reply.value hprevious, rfl⟩
  | clear => exact ⟨h.clear, rfl, rfl⟩

end Mirrors

/-! ### Runs with copies -/

/-- What is done with tables that are numbered as they come: a command on one of them, or a copy of
one, which is the next. -/
inductive Action (K V : Type) where
  | command (i : Nat) (c : Command (Instance K) V)
  | copy (i : Nat)

namespace Action

section Run

variable {S : Type} (respond : S → Command (Instance K) V → Response S K V)

def after (xs : List S) : Action K V → List S
  | command i c => xs.modify i fun x => (respond x c).state
  | copy i => xs ++ xs[i]?.toList

def told (xs : List S) : Action K V → Option (Reply K V × List Log.Notice)
  | command i c => xs[i]?.map fun x => ((respond x c).reply, (respond x c).notices)
  | copy _ => none

def run (xs : List S) (actions : List (Action K V)) : List S := actions.foldl (after respond) xs

/-- What is told about actions taken one after another. -/
def transcript (xs : List S) : List (Action K V) → List (Option (Reply K V × List Log.Notice))
  | [] => []
  | a :: actions => a.told respond xs :: transcript (a.after respond xs) actions

end Run

section Agree

variable {S T : Type} {R : S → T → Prop} {xs : List S} {ys : List T}

theorem forall₂_getElem? (h : List.Forall₂ R xs ys) (i : Nat) :
    (xs[i]? = none ∧ ys[i]? = none) ∨ ∃ x y, xs[i]? = some x ∧ ys[i]? = some y ∧ R x y := by
  induction h generalizing i with
  | nil => exact .inl ⟨rfl, rfl⟩
  | @cons x y xs ys hxy h ih =>
    cases i with
    | zero => exact .inr ⟨x, y, rfl, rfl, hxy⟩
    | succ i => exact ih i

theorem forall₂_modify {f : S → S} {g : T → T} (hfg : ∀ x y, R x y → R (f x) (g y))
    (h : List.Forall₂ R xs ys) (i : Nat) : List.Forall₂ R (xs.modify i f) (ys.modify i g) := by
  induction h generalizing i with
  | nil => cases i <;> exact .nil
  | @cons x y xs ys hxy h ih =>
    cases i with
    | zero => exact .cons (hfg x y hxy) h
    | succ i => exact .cons hxy (ih i)

variable {respond : S → Command (Instance K) V → Response S K V}
  {respond' : T → Command (Instance K) V → Response T K V}

theorem forall₂_after (hR : ∀ x y c, R x y → (respond x c).Agree R (respond' y c))
    (h : List.Forall₂ R xs ys) (a : Action K V) :
    List.Forall₂ R (a.after respond xs) (a.after respond' ys) := by
  cases a with
  | command i c => exact forall₂_modify (fun x y hxy => (hR x y c hxy).state) h i
  | copy i =>
    apply List.rel_append h
    rcases forall₂_getElem? h i with ⟨hx, hy⟩ | ⟨x, y, hx, hy, hxy⟩
    · rw [hx, hy]
      exact .nil
    · rw [hx, hy]
      exact .cons hxy .nil

theorem told_eq (hR : ∀ x y c, R x y → (respond x c).Agree R (respond' y c))
    (h : List.Forall₂ R xs ys) (a : Action K V) : a.told respond xs = a.told respond' ys := by
  cases a with
  | command i c =>
    rcases forall₂_getElem? h i with ⟨hx, hy⟩ | ⟨x, y, hx, hy, hxy⟩
    · simp only [told, hx, hy, Option.map_none]
    · obtain ⟨-, hreply, hnotices⟩ := hR x y c hxy
      simp only [told, hx, hy, Option.map_some, hreply, hnotices]
  | copy i => rfl

/-- What agrees on every command agrees on every run. -/
theorem run_agree (hR : ∀ x y c, R x y → (respond x c).Agree R (respond' y c))
    (h : List.Forall₂ R xs ys) (actions : List (Action K V)) :
    List.Forall₂ R (run respond xs actions) (run respond' ys actions) ∧
      transcript respond xs actions = transcript respond' ys actions := by
  induction actions generalizing xs ys with
  | nil => exact ⟨h, rfl⟩
  | cons a actions ih =>
    obtain ⟨hrun, htranscript⟩ := ih (forall₂_after hR h a)
    refine ⟨hrun, ?_⟩
    unfold transcript
    rw [told_eq hR h a, htranscript]

end Agree

end Action

/-! ### Slot tables and bounded registries -/

/-- A table acts as a registry that has room for `n` instances: in what can be asked for, in what it
turns away, and in what an insertion does to the slots. -/
structure ActsWithin [BEq V] (n : Nat) (t : SlotTable K V) (r : Registry K V) : Prop where
  capacity : t.capacity = n
  count_slots : t.count = t.slots.countP Option.isSome
  count_le : t.count ≤ n
  /-- No two slots hold the same instance. -/
  distinct : t.slots.Pairwise fun a b => ∀ e ∈ a, ∀ f ∈ b, (e.1 == f.1) = false
  get? : ∀ k, t.get? k = r.get? k
  contains : ∀ k, t.contains k = r.contains k
  containsValue : ∀ v, t.containsValue v = r.containsValue v
  size : t.count = r.size
  isEmpty : t.isEmpty = r.isEmpty
  refused_iff : ∀ k v, (∃ x, t.insert k v = .error x) ↔ t.contains k = false ∧ t.count = n
  /-- What is turned away is given back, with one notice, and nothing has changed. -/
  refused : ∀ k v x, t.insert k v = .error x →
    x = ⟨k, v, n⟩ ∧ t.perform (.insert k v) = ⟨t, .rejected x, [x.notice]⟩
  /-- An instance that is present keeps its slot, however many slots are taken. -/
  replaced : ∀ k v, t.contains k = true → ∃ i u, t.place? k = some i ∧ t.insert k v = .ok u ∧
    u.table.place? k = some i ∧ u.table.slots = t.slots.set i (some (k, v)) ∧
    u.table.count = t.count

namespace Mirrors

variable {n : Nat} {t : SlotTable K V} {r : Registry K V}

theorem distinct (h : Mirrors n t r) :
    t.slots.Pairwise fun a b => ∀ e ∈ a, ∀ f ∈ b, (e.1 == f.1) = false := by
  have hkeyed := Instance.keyed_byIdentity.mp h.keyed
  unfold OrderedMap.Keyed toList at hkeyed
  rw [List.pairwise_map, List.pairwise_filterMap] at hkeyed
  exact hkeyed

theorem isEmpty (h : Mirrors n t r) : t.isEmpty = r.isEmpty := by
  unfold SlotTable.isEmpty
  rw [h.size]
  change (r.toList.length == 0) = r.toList.isEmpty
  cases r.toList <;> rfl

theorem refused (h : Mirrors n t r) {k : Instance K} {v : V} {x : Rejection K V}
    (hx : t.insert k v = .error x) : x = ⟨k, v, n⟩ := by
  rcases t.insert_cases k v with ⟨_, _, _, -, hins⟩ | ⟨-, _, _, -, hins⟩ | ⟨-, -, hins⟩ <;>
    rw [hins] at hx <;> cases hx
  rw [h.capacity]

theorem replaced {k : Instance K} (hk : t.contains k = true) (v : V) :
    ∃ i u, t.place? k = some i ∧ t.insert k v = .ok u ∧ u.table.place? k = some i ∧
      u.table.slots = t.slots.set i (some (k, v)) ∧ u.table.count = t.count := by
  rcases t.insert_cases k v with ⟨before, e, after, hp, hins⟩ | ⟨habsent, -⟩ | ⟨habsent, -⟩
  · exact ⟨_, _, hp.place?, hins, (hp.replace v).place?, rfl, rfl⟩
  all_goals
    rw [absent_iff, hk] at habsent
    cases habsent

theorem actsWithin [BEq V] (h : Mirrors n t r) : ActsWithin n t r where
  capacity := h.capacity
  count_slots := h.count.trans List.length_filterMap_eq_countP
  count_le := h.count_le
  distinct := h.distinct
  get? := h.get?
  contains := h.contains
  containsValue := h.containsValue
  size := h.size
  isEmpty := h.isEmpty
  refused_iff := h.insert_error_iff
  refused _ _ _ hx := ⟨h.refused hx, perform_insert_of_error hx⟩
  replaced _ v hk := replaced hk v

end Mirrors

/-- In every run of commands and copies, a table of `n` slots acts as a registry with room for `n`
instances: on the way the same is replied and noted, and at the end the two agree in whatever they
are asked for, each copy with the copy made of the registry. -/
theorem behaves_as_bounded_registry [BEq V] {n : Nat} (hn : 1 ≤ n) (actions : List (Action K V)) :
    let t : SlotTable K V := blank n
    let r : Registry K V := { id := 0 }
    ofCapacity n = .ok t ∧
    Action.transcript respond [t] actions =
      Action.transcript (Registry.respondWithin n) [r] actions ∧
    List.Forall₂ (ActsWithin n) (Action.run respond [t] actions)
      (Action.run (Registry.respondWithin n) [r] actions) := by
  intro t r
  have hstart : List.Forall₂ (Mirrors n) [t] [r] := .cons (Mirrors.blank n 0) .nil
  obtain ⟨hrun, htranscript⟩ :=
    Action.run_agree (fun _ _ c h => Mirrors.respond h c) hstart actions
  refine ⟨if_neg (by omega), htranscript, hrun.imp fun _ _ => Mirrors.actsWithin⟩

/-- A table of two slots turns an instance away, takes a new value for one that it holds, and has
room in a copy from which one was erased. -/
theorem behaves_as_bounded_registry_full :
    let a : Instance Nat := ⟨0, "a", 5⟩
    let b : Instance Nat := ⟨1, "b", 5⟩
    let c : Instance Nat := ⟨2, "c", 7⟩
    let actions : List (Action Nat Nat) := [.command 0 (.insert a 1), .command 0 (.insert b 2),
      .command 0 (.insert c 3), .command 0 (.insert b 4), .copy 0, .command 1 (.erase a),
      .command 1 (.insert c 3)]
    1 ≤ 2 ∧ Action.transcript respond [blank 2] actions =
        Action.transcript (Registry.respondWithin 2) [{ id := 0 }] actions ∧
      (Action.run respond [blank 2] actions).map toList = [[(a, 1), (b, 4)], [(c, 3), (b, 4)]] := by
  intro a b c actions
  have hn : 1 ≤ 2 := by decide
  obtain ⟨-, htranscript, -⟩ := behaves_as_bounded_registry hn actions
  refine ⟨hn, htranscript, ?_⟩
  rfl

end SlotTable

end WorkTracking
