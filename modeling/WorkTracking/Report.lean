import WorkTracking.OrderedMap
import WorkTracking.Toml.Item

/-!
What operations tell besides their results: what can be refused, by cause, with the wording of each
refusal; requests that make no sense where they are made; and notices for whoever watches.
-/
namespace WorkTracking

/-! ### Refusals -/

/-- Containers that offer only part of an operation family. -/
inductive Container where
  | workingSet | frozenSet | registry
  deriving DecidableEq, Repr

namespace Container

def name : Container → String
  | workingSet => "CompactSet"
  | frozenSet => "ImmutableCompactSet"
  | registry => "IdentityRegistry"

end Container

/-- Operations that some container leaves out. -/
inductive Operation where
  | add | remove | addAll | clear | retainAll | removeAll | toList | keySet
  deriving DecidableEq, Repr

namespace Operation

def name : Operation → String
  | add => "add"
  | remove => "remove"
  | addAll => "add_all"
  | clear => "clear"
  | retainAll => "retain_all"
  | removeAll => "remove_all"
  | toList => "to_vec"
  | keySet => "key_set"

end Operation

/-- Why an item is no natural number of one machine word. -/
inductive Misfit where
  /-- It is this integer, which is negative or too large. -/
  | outOfRange (n : Int)
  | notInteger (found : Toml.Kind)
  deriving DecidableEq, Repr

namespace Misfit

/-- A number that cannot be told is reported in the words of the document's reader alone. -/
def reason : Misfit → String
  | notInteger .unreadable => ""
  | _ => "not a usize"

end Misfit

inductive Fault where
  /-- The settings are not a well-formed document. -/
  | malformedSettings
  | unknownSetting (name : String)
  | unusableSetting (name : String) (cause : Misfit)
  | zeroBoundedCapacity
  | noSlots
  | tooFewSlots (entries slots : Nat)
  | unsupported (container : Container) (operation : Operation)
  /-- The statement, in its quoted form, is tracked already. -/
  | alreadyRegistered (statement : String)
  deriving DecidableEq, Repr

namespace Fault

def reason : Fault → String
  | malformedSettings => "tracking config: "
  | unknownSetting name =>
    "tracking config: unknown field `" ++ name
      ++ "`, expected `registry_capacity` or `bounded_map_capacity`"
  | unusableSetting _ cause => "tracking config: " ++ cause.reason
  | zeroBoundedCapacity => "bounded_map_capacity must be > 0"
  | noSlots => "maximum size of an ArrayIdentityMap must be > 0"
  | tooFewSlots entries slots =>
    "cannot fit " ++ toString entries ++ " entries into an ArrayIdentityMap of size "
      ++ toString slots
  | unsupported container operation =>
    container.name ++ " does not support " ++ operation.name
  | alreadyRegistered statement => "statement already registered: " ++ statement

/-- Whether the fault lies in an argument, rather than in the operation or its moment. -/
def isArgument : Fault → Bool
  | unsupported .. | alreadyRegistered .. => false
  | _ => true

/-- The full wording: arguments at fault are announced as such. -/
def message (fault : Fault) : String :=
  if fault.isArgument then "invalid argument: " ++ fault.reason else fault.reason

end Fault

/-! ### Requests without sense -/

/-- Such a request leaves everything as it was. -/
inductive Misuse where
  /-- Nothing of the kind asked for goes by this name. -/
  | unknownName (name : String)
  /-- The named set is frozen, and the operation is for working sets only. -/
  | frozenSet (name : String)
  deriving DecidableEq, Repr

/-- What comes out well has begun well. -/
theorem exists_of_bind_eq_ok {α β : Type} {x : Except Misuse α} {f : α → Except Misuse β} {b : β}
    (h : (x >>= f) = .ok b) : ∃ a, x = .ok a ∧ f a = .ok b := by
  cases x with
  | error e => cases h
  | ok a => exact ⟨a, rfl, h⟩

/-- What goes by a name. -/
def OrderedMap.named {α : Type} (m : OrderedMap String α) (name : String) : Except Misuse α :=
  match m.get? name with
  | some a => .ok a
  | none => .error (.unknownName name)

theorem OrderedMap.get?_of_named {α : Type} {m : OrderedMap String α} {name : String} {a : α}
    (h : m.named name = .ok a) : m.get? name = some a := by
  unfold named at h
  split at h <;> cases h
  assumption

/-! ### Notices -/

namespace Log

inductive Level where
  | trace | debug
  deriving DecidableEq, Repr

inductive Field where
  | number (n : Nat)
  | text (s : String)
  deriving DecidableEq, Repr

structure Notice where
  level : Level
  message : String
  fields : List (String × Field)
  deriving DecidableEq, Repr

end Log

end WorkTracking
