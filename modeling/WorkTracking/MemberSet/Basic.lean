import WorkTracking.Bitmap.Digest
import WorkTracking.Report
import WorkTracking.Vocabulary.Basic

/-!
Sets of values over a vocabulary, kept as bitmaps of ordinals. A working set belongs to one unit of
work and changes with it; a frozen set never changes, and carries its size and fingerprint.

A set knows its vocabulary by number. Operations that need the vocabulary take it as an argument,
and those that may make it grow hand it back.
-/
namespace WorkTracking

structure WorkingSet where
  vocabulary : Nat
  members : Bitmap

structure FrozenSet where
  vocabulary : Nat
  members : Bitmap
  size : Nat
  fingerprint : UInt64

inductive MemberSet where
  | working (s : WorkingSet)
  | frozen (s : FrozenSet)

namespace WorkingSet

variable {V : Type} [DecidableEq V] [Hashable V]

/-- The empty set over `u`, with room for the values known so far. -/
def emptyOver (u : Vocabulary V) : WorkingSet := ⟨u.id, Bitmap.blank u.size⟩

/-- A set after a change, and whether its membership differs. -/
structure Update where
  set : WorkingSet
  changed : Bool

/-- A set and its vocabulary after a change to the set. -/
structure Addition (V : Type) [BEq V] [Hashable V] extends Update, Vocabulary.Grown V

/-- Adds `v`, which is registered first if need be. -/
def insert (s : WorkingSet) (u : Vocabulary V) (v : V) : Addition V :=
  let known := u.register v
  let update := s.members.insert known.ordinal
  { known with set := { s with members := update.bitmap }, changed := update.changed }

/-- Adds all values, also those after the first change. -/
def insertAll (s : WorkingSet) (u : Vocabulary V) : List V → Addition V
  | [] => { set := s, changed := false, vocabulary := u, growth := [] }
  | v :: vs =>
    let first := s.insert u v
    let rest := first.set.insertAll first.vocabulary vs
    { rest with changed := first.changed || rest.changed, growth := first.growth ++ rest.growth }

/-- Removes `v`. An unknown value is no member, and stays unknown. -/
def erase (s : WorkingSet) (u : Vocabulary V) (v : V) : Update :=
  match u.ordinal? v with
  | none => { set := s, changed := false }
  | some i =>
    let update := s.members.erase i
    { set := { s with members := update.bitmap }, changed := update.changed }

def clear (s : WorkingSet) : WorkingSet := { s with members := s.members.clear }

/-- A copy that never changes. -/
def freeze (digest : WordDigest) (s : WorkingSet) : FrozenSet where
  vocabulary := s.vocabulary
  members := s.members
  size := s.members.count
  fingerprint := s.members.fingerprint digest

end WorkingSet

namespace MemberSet

def vocabulary : MemberSet → Nat
  | working s => s.vocabulary
  | frozen s => s.vocabulary

def members : MemberSet → Bitmap
  | working s => s.members
  | frozen s => s.members

def size : MemberSet → Nat
  | working s => s.members.count
  | frozen s => s.size

def isEmpty : MemberSet → Bool
  | working s => s.members.isEmpty
  | frozen s => s.size == 0

def fingerprint (digest : WordDigest) : MemberSet → UInt64
  | working s => s.members.fingerprint digest
  | frozen s => s.fingerprint

def container : MemberSet → Container
  | working _ => .workingSet
  | frozen _ => .frozenSet

/-- The working set, for an operation that frozen sets refuse. -/
def changeable (operation : Operation) : MemberSet → Except Fault WorkingSet
  | working s => .ok s
  | frozen _ => .error (.unsupported .frozenSet operation)

end MemberSet

end WorkTracking
