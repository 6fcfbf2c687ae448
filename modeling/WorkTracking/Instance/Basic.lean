import WorkTracking.Value

/-!
Instances: values with an identity. Two instances are the same just if they were made together,
whatever values they hold; instances with equal values stay apart.
-/
namespace WorkTracking

/-- `id` is the identity; `label` stands for it in printed forms. -/
structure Instance (K : Type) where
  id : Nat
  label : String
  payload : K

namespace Instance

variable {K : Type}

instance : BEq (Instance K) := ⟨fun a b => a.id == b.id⟩

instance : Hashable (Instance K) := ⟨fun a => hash a.id⟩

theorem beq_eq_id (a b : Instance K) : (a == b) = (a.id == b.id) := rfl

@[simp] theorem beq_iff_id (a b : Instance K) : (a == b) = true ↔ a.id = b.id := by
  simp [beq_eq_id]

instance : EquivBEq (Instance K) where
  rfl := by simp
  symm h := by simp_all
  trans h k := by simp_all

theorem hash_eq_id (a : Instance K) : hash a = hash a.id := rfl

instance : LawfulHashable (Instance K) where
  hash_eq a b h := by rw [hash_eq_id, hash_eq_id, (beq_iff_id a b).mp h]

/-- The identity in printed forms. -/
def address (a : Instance K) : String := "<" ++ a.label ++ ">"

/-- An instance is printed as its value, with the address when instances are to be told apart. -/
instance [Rendered K] : Rendered (Instance K) where
  plain a := Rendered.plain a.payload
  quoted a := Rendered.quoted a.payload ++ "@" ++ a.address

/-- An instance is listed under its label. -/
instance : Shown (Instance K) := ⟨fun a => .text a.label⟩

end Instance

/-- What an instance is looked up by: its identity, without the instance. -/
structure Probe where
  id : Nat

namespace Probe

variable {K : Type}

instance : Hashable Probe := ⟨fun p => hash p.id⟩

def of (a : Instance K) : Probe := ⟨a.id⟩

def finds (p : Probe) (a : Instance K) : Bool := a.id == p.id

/-- Looking for an identity is looking for its instance. -/
theorem finds_of (a b : Instance K) : (of a).finds b = (b == a) := rfl

/-- What a probe finds is kept under the hash that the probe has. -/
theorem hash_eq_of_finds {p : Probe} {a : Instance K} (h : p.finds a = true) :
    hash a = hash p := by
  have hid : a.id = p.id := beq_iff_eq.mp h
  rw [Instance.hash_eq_id, hid]
  rfl

end Probe

end WorkTracking
