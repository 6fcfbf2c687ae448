import WorkTracking.Ledger.CursorSet
import WorkTracking.OrderedMap

/-!
Ledgers: the live statements of one connection with the cursors opened under each. The first
statement has a place of its own, and the others share an overflow map that exists only while it is
needed. A statement has no cursor set before its first cursor.

When the first statement is removed, any of the others may take its place; the caller says which.
-/
namespace WorkTracking

/-- A statement in the first place. -/
structure Leading (S C : Type) [BEq C] where
  statement : S
  cursors : Option (CursorSet C)

abbrev Overflow (S C : Type) [BEq S] [BEq C] := OrderedMap S (Option (CursorSet C))

structure Live (S C : Type) [BEq S] [BEq C] where
  first : Leading S C
  overflow : Option (Overflow S C)

structure Ledger (S C : Type) [BEq S] [BEq C] where
  live : Option (Live S C) := none

namespace Ledger

variable {S C : Type} [BEq S] [BEq C]

def hasStatements (l : Ledger S C) : Bool := l.live.isSome

def isEmpty (l : Ledger S C) : Bool := !l.hasStatements

/-- The number of live statements. -/
def size (l : Ledger S C) : Nat :=
  match l.live with
  | none => 0
  | some live => 1 + (live.overflow.map OrderedMap.size).getD 0

def contains (l : Ledger S C) (s : S) : Bool :=
  l.live.any fun live => live.first.statement == s || live.overflow.any (·.contains s)

/-- The cursor set of a live statement that has one. -/
def cursors? (l : Ledger S C) (s : S) : Option (CursorSet C) := do
  let live ← l.live
  if live.first.statement == s then live.first.cursors
  else (← (← live.overflow).get? s)

/-- Makes `s` live if it is not, and changes the place for its cursor set. -/
def place (l : Ledger S C) (s : S) (change : Option (CursorSet C) → Option (CursorSet C)) :
    Ledger S C :=
  let live := l.live.getD { first := { statement := s, cursors := none }, overflow := none }
  if live.first.statement == s then
    { live := some { live with first := { live.first with cursors := change live.first.cursors } } }
  else
    let overflow := live.overflow.getD .empty
    { live := some
        { live with
          overflow := some (overflow.insert s (change ((overflow.get? s).getD none))) } }

/-- Starts to track a statement, without cursors. One that is live already is refused. -/
def register (l : Ledger S C) (s : S) : Option (Ledger S C) :=
  if l.contains s then none else some (l.place s id)

/-- A ledger after the cursor set of a statement was opened to change. -/
structure Opened (S C : Type) [BEq S] [BEq C] where
  ledger : Ledger S C
  /-- the set before the change -/
  before : CursorSet C
  /-- the set after the change -/
  after : CursorSet C
  /-- whether the statement was unknown, and has been registered now -/
  healed : Bool

/-- Opens the cursor set of `s` to change. A missing set is made, and an unknown statement is
registered. -/
def openCursors (l : Ledger S C) (s : S) (change : CursorSet C → CursorSet C) : Opened S C :=
  let before := (l.cursors? s).getD .empty
  { ledger := l.place s fun set => some (change (set.getD .empty))
    before
    after := change before
    healed := !l.contains s }

/-- Takes the entry number `choice`, counted round, out of an overflow map. -/
def promote (choice : Nat) (overflow : Overflow S C) : Option (Leading S C × Overflow S C) := do
  let (statement, cursors) ← overflow.entries[choice % overflow.size]?
  return ({ statement, cursors }, overflow.erase statement)

/-- An overflow map is dropped when it becomes empty. -/
def unlessEmpty (overflow : Overflow S C) : Option (Overflow S C) :=
  if overflow.isEmpty then none else some overflow

/-- A ledger after a statement was removed, and the cursors that were open under it. -/
structure Removed (S C : Type) [BEq S] [BEq C] where
  ledger : Ledger S C
  cursors : CursorSet C

/-- Stops tracking `s`, and hands back its cursors. If `s` was first and others are live, the one
that `choice` picks becomes first. -/
def remove (l : Ledger S C) (s : S) (choice : Nat) : Option (Removed S C) := do
  let live ← l.live
  if live.first.statement == s then
    let cursors := live.first.cursors.getD .empty
    match live.overflow.bind (promote choice) with
    | some (first, rest) =>
      return { ledger := { live := some { first, overflow := unlessEmpty rest } }, cursors }
    | none => return { ledger := {}, cursors }
  else
    let overflow ← live.overflow
    let cursors ← overflow.get? s
    return { ledger := { live := some { live with overflow := unlessEmpty (overflow.erase s) } }
             cursors := cursors.getD .empty }

/-- The live statements in an order that starts with the first one, with their places. -/
def toList (l : Ledger S C) : List (S × Option (CursorSet C)) :=
  match l.live with
  | none => []
  | some live =>
    (live.first.statement, live.first.cursors)
      :: (live.overflow.map OrderedMap.entries).getD []

/-- The live statements with their cursors, the first one before the others. -/
def visits (l : Ledger S C) : List (S × CursorSet C) :=
  l.toList.map fun (s, set) => (s, set.getD .empty)

/-- The statement in the first place. -/
def first? (l : Ledger S C) : Option S := l.live.map (·.first.statement)

/-- Forgets everything. -/
def clear (_ : Ledger S C) : Ledger S C := {}

end Ledger

end WorkTracking
