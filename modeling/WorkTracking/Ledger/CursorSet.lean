/-!
Cursor sets: the open cursors of one statement, without an order of their own.
-/
namespace WorkTracking

structure CursorSet (C : Type) [BEq C] where
  members : List C
  distinct : members.Pairwise (fun a b => (a == b) = false)

namespace CursorSet

variable {C : Type} [BEq C]

def empty : CursorSet C := ⟨[], .nil⟩

def contains (s : CursorSet C) (c : C) : Bool := s.members.any (· == c)

def size (s : CursorSet C) : Nat := s.members.length

def insert (s : CursorSet C) (c : C) : CursorSet C :=
  if absent : s.contains c = false then
    { members := s.members ++ [c]
      distinct := by
        simp only [contains, List.any_eq_false, Bool.not_eq_true] at absent
        rw [List.pairwise_append]
        refine ⟨s.distinct, by simp, fun a ha d hd => ?_⟩
        rw [List.mem_singleton.mp hd]
        exact absent a ha }
  else s

def insertAll (s : CursorSet C) (cs : List C) : CursorSet C := cs.foldl insert s

def erase (s : CursorSet C) (c : C) : CursorSet C where
  members := s.members.eraseP (· == c)
  distinct := s.distinct.sublist List.eraseP_sublist

variable [EquivBEq C]

theorem contains_insert (s : CursorSet C) (c d : C) :
    (s.insert c).contains d = (c == d || s.contains d) := by
  unfold insert
  split
  case isTrue => simp [contains, Bool.or_comm]
  case isFalse present =>
    cases h : c == d
    · simp
    · rw [Bool.not_eq_false, contains, List.any_eq_true] at present
      obtain ⟨e, mem, same⟩ := present
      rw [Bool.true_or, contains, List.any_eq_true]
      exact ⟨e, mem, BEq.trans same h⟩

theorem any_eraseP {c d : C} {l : List C}
    (distinct : l.Pairwise (fun a b => (a == b) = false)) :
    (l.eraseP (· == c)).any (· == d) = (!(c == d) && l.any (· == d)) := by
  induction l with
  | nil => simp
  | cons e rest ih =>
    rw [List.pairwise_cons] at distinct
    have ih := ih distinct.2
    cases here : e == c
    · cases h : c == d
      · cases other : e == d <;> simp_all
      · have : (e == d) = false := by rw [← BEq.congr_right h, here]
        simp_all
    · have same : (e == d) = (c == d) := BEq.congr_left here
      cases h : c == d
      · simp [here, same, h]
      · have : ∀ f ∈ rest, (f == d) = false := fun f mem => by
          rw [BEq.comm, ← BEq.congr_left h, ← BEq.congr_left here]
          exact distinct.1 f mem
        simpa [here] using this

theorem contains_erase (s : CursorSet C) (c d : C) :
    (s.erase c).contains d = (!(c == d) && s.contains d) :=
  any_eraseP s.distinct

end CursorSet

end WorkTracking
