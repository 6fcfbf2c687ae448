import WorkTracking.Ledger.CursorSet
import WorkTracking.Report
import WorkTracking.Proofs.OrderedMap

/-!
Containers under other keys. As long as the new keys are equal just where the old ones are, each
operation on the new container is the operation on the old one, carried over.
-/
namespace WorkTracking

/-- Other keys in place of given ones, equal to each other just if the given ones are. -/
structure Rekeying (α β : Type) [BEq α] [BEq β] where
  toFun : α → β
  beq_toFun : ∀ a b, (toFun a == toFun b) = (a == b)

namespace Rekeying

variable {α β : Type} [BEq α] [BEq β]

instance : CoeFun (Rekeying α β) fun _ => α → β := ⟨toFun⟩

attribute [simp] beq_toFun

/-- Every key in its own place. -/
def same : Rekeying α α := ⟨fun a => a, fun _ _ => rfl⟩

theorem pairwise (g : Rekeying α β) {l : List α} (h : l.Pairwise fun a b => (a == b) = false) :
    (l.map g).Pairwise fun a b => (a == b) = false := by
  rw [List.pairwise_map]
  exact h.imp fun hab => by rw [g.beq_toFun, hab]

end Rekeying

/-! ### Ordered maps -/

namespace OrderedMap

variable {α β γ δ : Type} [BEq α] [BEq β]

/-- The map under other keys, with other values. -/
def map (g : Rekeying α β) (f : γ → δ) (m : OrderedMap α γ) : OrderedMap β δ where
  entries := m.entries.map (Prod.map g f)
  distinct := by
    have h := g.pairwise m.distinct
    rw [List.map_map] at h ⊢
    exact h

variable (g : Rekeying α β) (f : γ → δ) (m : OrderedMap α γ)

@[simp] theorem empty_map : (empty : OrderedMap α γ).map g f = empty := rfl

theorem entries_map : (m.map g f).entries = m.entries.map (Prod.map g f) := rfl

@[simp] theorem size_map : (m.map g f).size = m.size := List.length_map _

@[simp] theorem isEmpty_map : (m.map g f).isEmpty = m.isEmpty := List.isEmpty_map

@[simp] theorem keys_map : (m.map g f).keys = m.keys.map g := by
  simp [keys, map]

@[simp] theorem values_map : (m.map g f).values = m.values.map f := by
  simp [values, map]

theorem find?_map (k : α) : (m.map g f).find? (g k) = (m.find? k).map (Prod.map g f) := by
  have hkey : (fun e => e.1 == g k) ∘ Prod.map g f = fun e : α × γ => e.1 == k := by
    funext e
    exact g.beq_toFun e.1 k
  simp only [find?, map, List.find?_map, hkey]

@[simp] theorem get?_map (k : α) : (m.map g f).get? (g k) = (m.get? k).map f := by
  rw [get?, find?_map, get?, Option.map_map, Option.map_map]
  rfl

@[simp] theorem contains_map (k : α) : (m.map g f).contains (g k) = m.contains k := by
  simp [contains, map, Function.comp_def]

theorem write_map (k : α) (c : γ) (l : List (α × γ)) :
    write (g k) (f c) (l.map (Prod.map g f)) = (write k c l).map (Prod.map g f) := by
  induction l with
  | nil => rfl
  | cons e l ih =>
    simp only [List.map_cons, write, Prod.map_fst, g.beq_toFun, ih]
    split <;> rfl

@[simp] theorem insert_map (k : α) (c : γ) :
    (m.map g f).insert (g k) (f c) = (m.insert k c).map g f :=
  eq_of_entries (write_map g f k c m.entries)

@[simp] theorem erase_map (k : α) : (m.map g f).erase (g k) = (m.erase k).map g f := by
  apply eq_of_entries
  simp [erase, map, List.eraseP_map, Function.comp_def]

/-- The map with its values under other keys. -/
def mapKeys (g : Rekeying α β) (m : OrderedMap α γ) : OrderedMap β γ := m.map g fun c => c

theorem values_mapKeys : (m.mapKeys g).values = m.values := by
  simp [mapKeys]

theorem get?_mapKeys (k : α) : (m.mapKeys g).get? (g k) = m.get? k := by
  simp [mapKeys]

theorem insert_mapKeys (k : α) (c : γ) : (m.mapKeys g).insert (g k) c = (m.insert k c).mapKeys g :=
  m.insert_map g (fun c => c) k c

theorem erase_mapKeys (k : α) : (m.mapKeys g).erase (g k) = (m.erase k).mapKeys g :=
  m.erase_map g (fun c => c) k

/-- The map with other values under its own keys. -/
def mapValues (f : γ → δ) (m : OrderedMap α γ) : OrderedMap α δ := m.map .same f

theorem get?_mapValues (k : α) : (m.mapValues f).get? k = (m.get? k).map f := m.get?_map .same f k

theorem insert_mapValues (k : α) (c : γ) :
    (m.mapValues f).insert k (f c) = (m.insert k c).mapValues f :=
  m.insert_map .same f k c

theorem erase_mapValues (k : α) : (m.mapValues f).erase k = (m.erase k).mapValues f :=
  m.erase_map .same f k

theorem named_mapValues (m : OrderedMap String γ) (name : String) :
    (m.mapValues f).named name = (m.named name).map f := by
  rw [named, get?_mapValues, named]
  cases m.get? name <;> rfl

end OrderedMap

/-! ### Results -/

/-- What goes on from a result carried over comes out carried over if each way on does. -/
theorem bind_map_eq {α β γ δ : Type} {x : Except Misuse α} {g : α → β} {h : γ → δ}
    {k : α → Except Misuse γ} {k' : β → Except Misuse δ} (hk : ∀ a, k' (g a) = (k a).map h) :
    (x.map g >>= k') = (x >>= k).map h := by
  cases x with
  | error e => rfl
  | ok a => exact hk a

/-- The same where of both outcomes only a part is seen. -/
theorem map_bind_map_eq {α β γ δ ε : Type} {x : Except Misuse α} {g : α → β} {h : γ → ε}
    {h' : δ → ε} {k : α → Except Misuse γ} {k' : β → Except Misuse δ}
    (hk : ∀ a, (k' (g a)).map h' = (k a).map h) : (x.map g >>= k').map h' = (x >>= k).map h := by
  cases x with
  | error e => rfl
  | ok a => exact hk a

/-- Two results of which the same is seen are the same refusal, or both come out. -/
theorem cases_of_map_eq {α β γ : Type} {x : Except Misuse α} {y : Except Misuse β} {seen : α → γ}
    {seen' : β → γ} (hxy : x.map seen = y.map seen') :
    (∃ e, x = .error e ∧ y = .error e) ∨ ∃ a b, x = .ok a ∧ y = .ok b ∧ seen a = seen' b := by
  cases x with
  | error e =>
    cases y with
    | error e' =>
      obtain rfl : e = e' := Except.error.inj hxy
      exact .inl ⟨e, rfl, rfl⟩
    | ok b => cases hxy
  | ok a =>
    cases y with
    | error e => cases hxy
    | ok b => exact .inr ⟨a, b, rfl, rfl, Except.ok.inj hxy⟩

/-- What goes on from two results of which the same is seen comes out the same if it needs no more
than that. -/
theorem map_bind_eq_of_map_eq {α β γ δ δ' ε : Type} {x : Except Misuse α} {y : Except Misuse β}
    {seen : α → γ} {seen' : β → γ} (hxy : x.map seen = y.map seen') {k : α → Except Misuse δ}
    {k' : β → Except Misuse δ'} {h : δ → ε} {h' : δ' → ε} (next : γ → Except Misuse ε)
    (hk : ∀ a, (k a).map h = next (seen a)) (hk' : ∀ b, (k' b).map h' = next (seen' b)) :
    (x >>= k).map h = (y >>= k').map h' := by
  rcases cases_of_map_eq hxy with ⟨e, rfl, rfl⟩ | ⟨a, b, rfl, rfl, hab⟩
  · rfl
  · show (k a).map h = (k' b).map h'
    rw [hk, hk', hab]

/-! ### Cursor sets -/

namespace CursorSet

variable {C D : Type} [BEq C] [BEq D]

theorem eq_of_members {s t : CursorSet C} (h : s.members = t.members) : s = t := by
  cases s
  cases h
  rfl

/-- The set of other cursors. -/
def map (g : Rekeying C D) (s : CursorSet C) : CursorSet D where
  members := s.members.map g
  distinct := g.pairwise s.distinct

variable (g : Rekeying C D) (s : CursorSet C)

@[simp] theorem empty_map : (empty : CursorSet C).map g = empty := rfl

theorem members_map : (s.map g).members = s.members.map g := rfl

@[simp] theorem size_map : (s.map g).size = s.size := List.length_map _

@[simp] theorem contains_map (c : C) : (s.map g).contains (g c) = s.contains c := by
  simp [contains, map, Function.comp_def]

theorem members_insert (s : CursorSet C) (c : C) :
    (s.insert c).members = if s.contains c then s.members else s.members ++ [c] := by
  unfold insert
  split <;> simp_all

@[simp] theorem insert_map (c : C) : (s.map g).insert (g c) = (s.insert c).map g := by
  apply eq_of_members
  rw [members_insert, members_map, members_map, members_insert, contains_map]
  split <;> simp

@[simp] theorem insertAll_map (cs : List C) :
    (s.map g).insertAll (cs.map g) = (s.insertAll cs).map g := by
  induction cs generalizing s with
  | nil => rfl
  | cons c cs ih =>
    have hnext := ih (s.insert c)
    rw [← insert_map] at hnext
    exact hnext

@[simp] theorem erase_map (c : C) : (s.map g).erase (g c) = (s.erase c).map g := by
  apply eq_of_members
  simp [erase, map, List.eraseP_map, Function.comp_def]

end CursorSet

end WorkTracking
