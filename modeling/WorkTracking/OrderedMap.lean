/-!
Association lists without repeated keys, in the order in which the keys first came in. Keys are told
apart by `==` alone. Writing to a present key keeps its place; a removed key that comes back goes to
the end.
-/
namespace WorkTracking

structure OrderedMap (α β : Type) [BEq α] where
  entries : List (α × β)
  distinct : (entries.map Prod.fst).Pairwise (fun a b => (a == b) = false)

namespace OrderedMap

variable {α β : Type} [BEq α]

theorem distinct_nil :
    (([] : List (α × β)).map Prod.fst).Pairwise (fun a b => (a == b) = false) := List.Pairwise.nil

def empty : OrderedMap α β where
  entries := []
  distinct := distinct_nil

/-- The entries with `b` under `k`, in place if the key is present. -/
def write (k : α) (b : β) : List (α × β) → List (α × β)
  | [] => [(k, b)]
  | e :: rest => if e.1 == k then (e.1, b) :: rest else e :: write k b rest

theorem keys_write (k : α) (b : β) (l : List (α × β)) :
    (write k b l).map Prod.fst =
      if l.any (·.1 == k) then l.map Prod.fst else l.map Prod.fst ++ [k] := by
  induction l with
  | nil => simp [write]
  | cons e rest ih =>
    cases here : e.1 == k
    · cases later : rest.any (·.1 == k) <;> rw [later] at ih <;>
        simp only [write, here, List.map_cons, List.any_cons, later] <;> simpa using ih
    · simp [write, here]

theorem distinct_write {k : α} {b : β} {l : List (α × β)}
    (h : (l.map Prod.fst).Pairwise (fun a b => (a == b) = false)) :
    ((write k b l).map Prod.fst).Pairwise (fun a b => (a == b) = false) := by
  rw [keys_write]
  split
  case isTrue => exact h
  case isFalse absent =>
    simp only [List.any_eq_true, not_exists, not_and, Bool.not_eq_true] at absent
    rw [List.pairwise_append]
    refine ⟨h, by simp, fun a ha c hc => ?_⟩
    obtain ⟨e, mem, rfl⟩ := List.mem_map.mp ha
    rw [List.mem_singleton.mp hc]
    exact absent e mem

def find? (m : OrderedMap α β) (k : α) : Option (α × β) := m.entries.find? (·.1 == k)

def get? (m : OrderedMap α β) (k : α) : Option β := (m.find? k).map Prod.snd

def contains (m : OrderedMap α β) (k : α) : Bool := m.entries.any (·.1 == k)

def size (m : OrderedMap α β) : Nat := m.entries.length

def isEmpty (m : OrderedMap α β) : Bool := m.entries.isEmpty

def keys (m : OrderedMap α β) : List α := m.entries.map Prod.fst

def values (m : OrderedMap α β) : List β := m.entries.map Prod.snd

def insert (m : OrderedMap α β) (k : α) (b : β) : OrderedMap α β where
  entries := write k b m.entries
  distinct := distinct_write m.distinct

def erase (m : OrderedMap α β) (k : α) : OrderedMap α β where
  entries := m.entries.eraseP (·.1 == k)
  distinct := m.distinct.sublist (List.eraseP_sublist.map Prod.fst)

@[simp] theorem get?_empty (k : α) : (empty : OrderedMap α β).get? k = none := rfl

theorem contains_eq_isSome (m : OrderedMap α β) (k : α) : m.contains k = (m.get? k).isSome := by
  rw [Bool.eq_iff_iff]
  simp [contains, get?, find?]

theorem keys_insert (m : OrderedMap α β) (k : α) (b : β) :
    (m.insert k b).keys = if m.contains k then m.keys else m.keys ++ [k] :=
  keys_write k b m.entries

variable [EquivBEq α]

theorem find?_write (k a : α) (b : β) (l : List (α × β)) :
    ((write k b l).find? (·.1 == a)).map Prod.snd =
      if k == a then some b else (l.find? (·.1 == a)).map Prod.snd := by
  induction l with
  | nil => cases h : k == a <;> simp [write, h]
  | cons e rest ih =>
    cases here : e.1 == k
    · cases h : k == a
      · cases other : e.1 == a <;> simp_all [write]
      · have : (e.1 == a) = false := by rw [← BEq.congr_right h, here]
        simp_all [write]
    · have : (e.1 == a) = (k == a) := BEq.congr_left here
      cases h : k == a <;> simp_all [write]

theorem get?_insert (m : OrderedMap α β) (k a : α) (b : β) :
    (m.insert k b).get? a = if k == a then some b else m.get? a :=
  find?_write k a b m.entries

theorem find?_eraseP {k a : α} {l : List (α × β)}
    (distinct : (l.map Prod.fst).Pairwise (fun a b => (a == b) = false)) :
    (l.eraseP (·.1 == k)).find? (·.1 == a) =
      if k == a then none else l.find? (·.1 == a) := by
  induction l with
  | nil => simp
  | cons e rest ih =>
    rw [List.map_cons, List.pairwise_cons] at distinct
    have ih := ih distinct.2
    cases here : e.1 == k
    · cases h : k == a
      · cases other : e.1 == a <;> simp_all
      · have : (e.1 == a) = false := by rw [← BEq.congr_right h, here]
        simpa [here, this, h] using ih
    · have same : (e.1 == a) = (k == a) := BEq.congr_left here
      cases h : k == a
      · simp [here, same, h]
      · have : ∀ f ∈ rest, (f.1 == a) = false := fun f mem => by
          rw [BEq.comm, ← BEq.congr_left h, ← BEq.congr_left here]
          exact distinct.1 f.1 (List.mem_map_of_mem mem)
        simpa [here] using this

theorem get?_erase (m : OrderedMap α β) (k a : α) :
    (m.erase k).get? a = if k == a then none else m.get? a := by
  simp only [get?, find?, erase, find?_eraseP m.distinct]
  split <;> rfl

end OrderedMap

end WorkTracking
