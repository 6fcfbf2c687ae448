import WorkTracking.Report
import WorkTracking.Value
import WorkTracking.Vocabulary.Edition

/-!
Vocabularies give each value a lasting ordinal. A vocabulary publishes editions one after another:
lookups see the current edition, and only registering a new value publishes the next.

Registration has two parts, as several writers may share a vocabulary. The lookup may use any
edition published so far; `settle` is the part under the writers' lock, and looks again.
-/
namespace WorkTracking

/-- `id` tells vocabularies apart; `revision` counts the editions published before the current
one. -/
structure Vocabulary (V : Type) [BEq V] [Hashable V] where
  id : Nat
  revision : Nat := 0
  current : Edition V := {}

/-- What a vocabulary reports when it grows. -/
inductive Growth where
  /-- One value received an ordinal; `size` is the number of values then. -/
  | single (ordinal size : Nat)
  /-- A batch brought in `added` new values; `size` is the number of values then. -/
  | batch (added size : Nat)
  deriving DecidableEq, Repr

namespace Growth

open Log

def notice : Growth → Notice
  | single ordinal size =>
    ⟨.trace, "universe.grow", [("index", .number ordinal), ("size", .number size)]⟩
  | batch added size =>
    ⟨.trace, "universe.extend", [("added", .number added), ("size", .number size)]⟩

end Growth

namespace Vocabulary

variable {V : Type} [DecidableEq V] [Hashable V]

def ordinal? (u : Vocabulary V) (v : V) : Option Nat := u.current.ordinal? v

def value? (u : Vocabulary V) (i : Nat) : Option V := u.current.value? i

def size (u : Vocabulary V) : Nat := u.current.size

def isEmpty (u : Vocabulary V) : Bool := u.size == 0

def toList (u : Vocabulary V) : List V := u.current.toList

def quoted [Rendered V] (u : Vocabulary V) : String :=
  Text.record "ValueUniverse" [("values", Text.bracketed (u.toList.map Rendered.quoted))]

/-- Publishes what `next` makes of the current edition. -/
def publish (u : Vocabulary V) (next : Edition V → Edition V) : Vocabulary V :=
  { u with revision := u.revision + 1, current := next u.current }

/-- A vocabulary after some registrations, and what it reported. -/
structure Grown (V : Type) [BEq V] [Hashable V] where
  vocabulary : Vocabulary V
  growth : List Growth

/-- A vocabulary after one value was registered, the value's ordinal, and what was reported. -/
structure Registered (V : Type) [BEq V] [Hashable V] extends Grown V where
  ordinal : Nat

/-- The locked part of registering `v`: another writer may have registered it meanwhile. -/
def settle (u : Vocabulary V) (v : V) : Registered V :=
  match u.ordinal? v with
  | some i => { vocabulary := u, growth := [], ordinal := i }
  | none =>
    let next := u.size
    { vocabulary := u.publish (·.push v), growth := [.single next (next + 1)], ordinal := next }

/-- The ordinal of `v`, which is registered first if need be. -/
def register (u : Vocabulary V) (v : V) : Registered V :=
  match u.ordinal? v with
  | some i => { vocabulary := u, growth := [], ordinal := i }
  | none => u.settle v

/-- Registers values one after another. -/
def registerEach (u : Vocabulary V) : List V → Grown V
  | [] => { vocabulary := u, growth := [] }
  | v :: vs =>
    let first := u.register v
    let rest := first.vocabulary.registerEach vs
    { vocabulary := rest.vocabulary, growth := first.growth ++ rest.growth }

/-- Registers `v` while another writer registers `others` between the lookup and the lock. -/
def registerRaced (u : Vocabulary V) (v : V) (others : List V) : Registered V :=
  let seen := u.ordinal? v
  let other := u.registerEach others
  match seen with
  | some i => { other with ordinal := i }
  | none =>
    let own := other.vocabulary.settle v
    { own with growth := other.growth ++ own.growth }

/-- Registers a batch under one lock: at most one edition is published, with all new values. -/
def registerAll (u : Vocabulary V) (vs : List V) : Grown V :=
  let next := u.current.addAll vs
  if next.size = u.size then { vocabulary := u, growth := [] }
  else
    { vocabulary := u.publish fun _ => next
      growth := [.batch (next.size - u.size) next.size] }

/-- A batch that is produced while the vocabulary is in use: each value comes with another that is
registered just before it is handed over. The batch is complete before the lock is taken. -/
def registerProduced (u : Vocabulary V) (pairs : List (V × V)) : Grown V :=
  let produced := u.registerEach (pairs.map Prod.fst)
  let batch := produced.vocabulary.registerAll (pairs.map Prod.snd)
  { batch with growth := produced.growth ++ batch.growth }

theorem settle_of_known {u : Vocabulary V} {v : V} {i : Nat} (h : u.ordinal? v = some i) :
    u.settle v = { vocabulary := u, growth := [], ordinal := i } := by
  simp [settle, h]

/-- Without a writer in between, the second look changes nothing. -/
@[simp] theorem register_eq_settle (u : Vocabulary V) (v : V) : u.register v = u.settle v := by
  unfold register
  split
  case h_1 i known => rw [settle_of_known known]
  case h_2 => rfl

end Vocabulary

/-! ### Pins

A pin keeps the edition that a vocabulary had published when the pin was made, and knows whether
that very edition is still the current one. -/

/-- Which edition of which vocabulary: editions are the same object just if both agree. -/
structure EditionMark where
  vocabulary : Nat
  revision : Nat
  deriving DecidableEq, Repr

/-- A private copy of an edition is no edition of any vocabulary, and has no mark. -/
structure Pin (V : Type) [BEq V] [Hashable V] where
  edition : Edition V
  mark : Option EditionMark

namespace Vocabulary

variable {V : Type} [DecidableEq V] [Hashable V]

def mark (u : Vocabulary V) : EditionMark := ⟨u.id, u.revision⟩

def pin (u : Vocabulary V) : Pin V := { edition := u.current, mark := some u.mark }

end Vocabulary

namespace Pin

variable {V : Type} [DecidableEq V] [Hashable V]

/-- A copy of the edition, never current. -/
def copy (p : Pin V) : Pin V := { p with mark := none }

/-- Whether the pinned edition is the one that `u` publishes now. -/
def isCurrent (p : Pin V) (u : Vocabulary V) : Bool := p.mark == some u.mark

end Pin

end WorkTracking
