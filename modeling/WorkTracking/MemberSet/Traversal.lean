import WorkTracking.MemberSet.Basic

/-!
Traversals of a set, one member at a time, in ascending order of ordinals. A traversal keeps the
edition and the membership it started with, so nothing that happens meanwhile shows in it.
-/
namespace WorkTracking

structure Traversal (V : Type) [BEq V] [Hashable V] where
  edition : Edition V
  members : Bitmap
  upcoming : Option Nat

namespace Traversal

variable {V : Type} [DecidableEq V] [Hashable V]

def start (e : Edition V) (b : Bitmap) : Traversal V := ⟨e, b, b.next? 0⟩

/-- The next member. An ordinal without a value ends the traversal. -/
def next (t : Traversal V) : Option V × Traversal V :=
  match t.upcoming with
  | none => (none, t)
  | some p =>
    match t.edition.value? p with
    | some v => (some v, { t with upcoming := t.members.next? (p + 1) })
    | none => (none, { t with upcoming := none })

/-- Up to `k` members. -/
def take (t : Traversal V) : Nat → List V × Traversal V
  | 0 => ([], t)
  | k + 1 =>
    match t.next with
    | (some v, rest) =>
      let (more, last) := rest.take k
      (v :: more, last)
    | (none, rest) => ([], rest)

/-- A bound on the number of members to come. -/
def bound (t : Traversal V) : Nat :=
  match t.upcoming with
  | none => 0
  | some p => 64 * t.members.words.size - p + 1

theorem bound_next {t rest : Traversal V} {v : V} (h : t.next = (some v, rest)) :
    rest.bound < t.bound := by
  unfold next at h
  split at h
  case h_1 => simp at h
  case h_2 p upcoming =>
    split at h
    case h_2 => simp at h
    case h_1 =>
      simp only [Prod.mk.injEq] at h
      obtain ⟨-, rfl⟩ := h
      cases found : t.members.next? (p + 1) with
      | none => simp [bound, upcoming]
      | some q =>
        have := Bitmap.next?_bounds found
        simp only [bound, upcoming]
        omega

/-- All members to come, and the traversal at its end. -/
def drain (t : Traversal V) : List V × Traversal V :=
  match _step : t.next with
  | (some v, rest) =>
    let (more, last) := rest.drain
    (v :: more, last)
  | (none, rest) => ([], rest)
termination_by t.bound
decreasing_by exact bound_next _step

end Traversal

end WorkTracking
