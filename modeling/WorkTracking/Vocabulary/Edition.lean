import Std.Data.HashMap

/-!
Editions of a vocabulary: distinct values in the order of their registration, together with the
table that finds the ordinal of a value. An edition is immutable; adding a value makes another one.
-/
namespace WorkTracking

structure Edition (V : Type) [BEq V] [Hashable V] where
  values : Array V := #[]
  ordinals : Std.HashMap V Nat := ∅

namespace Edition

variable {V : Type} [DecidableEq V] [Hashable V]

def ordinal? (e : Edition V) (v : V) : Option Nat := e.ordinals[v]?

def value? (e : Edition V) (i : Nat) : Option V := e.values[i]?

def size (e : Edition V) : Nat := e.values.size

def isEmpty (e : Edition V) : Bool := e.size == 0

def toList (e : Edition V) : List V := e.values.toList

/-- Gives `v` the next ordinal, whether or not it has one. The ordinal is read off first, so that
neither part is copied if nothing else holds the edition. -/
def push (e : Edition V) (v : V) : Edition V :=
  let next := e.size
  { values := e.values.push v, ordinals := e.ordinals.insert v next }

/-- Gives `v` the next ordinal unless it has one. -/
def add (e : Edition V) (v : V) : Edition V :=
  if (e.ordinal? v).isNone then e.push v else e

def addAll (e : Edition V) (vs : List V) : Edition V := vs.foldl add e

/-- The two parts of an edition agree: the table finds exactly the place of each value. -/
def Consistent (e : Edition V) : Prop :=
  ∀ v i, e.ordinal? v = some i ↔ e.value? i = some v

@[simp] theorem size_push (e : Edition V) (v : V) : (e.push v).size = e.size + 1 := by
  simp [push, size]

@[simp] theorem toList_push (e : Edition V) (v : V) : (e.push v).toList = e.toList ++ [v] := by
  simp [push, toList]

theorem ordinal?_push (e : Edition V) (v w : V) :
    (e.push v).ordinal? w = if v = w then some e.size else e.ordinal? w := by
  simp [push, ordinal?, Std.HashMap.getElem?_insert]

theorem value?_push (e : Edition V) (v : V) (i : Nat) :
    (e.push v).value? i = if i = e.size then some v else e.value? i :=
  Array.getElem?_push

theorem consistent_empty : Consistent ({} : Edition V) := by
  intro v i
  simp [ordinal?, value?]

theorem Consistent.push {e : Edition V} (h : e.Consistent) {v : V} (fresh : e.ordinal? v = none) :
    (e.push v).Consistent := by
  intro w i
  rw [ordinal?_push, value?_push]
  by_cases same : v = w
  · subst same
    have absent : e.value? i ≠ some v := fun known => by simp [(h v i).mpr known] at fresh
    by_cases last : i = e.size <;> simp [last, absent]
    omega
  · by_cases last : i = e.size
    · subst last
      have absent : e.ordinal? w ≠ some e.size := fun known => by
        have := (h w e.size).mp known
        simp [value?, size] at this
      simp [same, absent]
    · simp [same, last, h w i]

theorem Consistent.add {e : Edition V} (h : e.Consistent) (v : V) : (e.add v).Consistent := by
  unfold Edition.add
  split
  case isTrue fresh => exact h.push (by simpa using fresh)
  case isFalse => exact h

end Edition

end WorkTracking
