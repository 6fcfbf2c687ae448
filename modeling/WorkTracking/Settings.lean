import WorkTracking.Report
import WorkTracking.Text.Printed
import WorkTracking.Toml.Document

/-!
Capacities, read from a document. A document decides only through its root entries, whatever their
order: `Settings.ofTable` reports the first bad one in the order of the keys.
-/
namespace WorkTracking

/-- `registryCapacity` is an estimate; `boundedCapacity` is the number of slots of a table. -/
structure Settings where
  registryCapacity : Nat := 16
  boundedCapacity : Nat := 30
  deriving DecidableEq, Repr

namespace Settings

def registryKey : String := "registry_capacity"

def boundedKey : String := "bounded_map_capacity"

/-- Settings are numbers of one machine word. -/
def wordSize : Nat := 18446744073709551616

/-- The number that an item is, or why it is none that a setting can have. -/
def natural : Toml.Item → Except Misfit Nat
  | .scalar (.integer n) =>
    if 0 ≤ n ∧ n < wordSize then .ok n.toNat else .error (.outOfRange n)
  | item => .error (.notInteger item.kind)

/-- What is wrong with one root entry. -/
def problem? (entry : String × Toml.Item) : Option Fault :=
  if entry.1 = registryKey ∨ entry.1 = boundedKey then
    match natural entry.2 with
    | .ok _ => none
    | .error cause => some (.unusableSetting entry.1 cause)
  else some (.unknownSetting entry.1)

/-- The problem of the least bad key. -/
def firstProblem? (t : Toml.Table) : Option Fault :=
  (t.mergeSort fun a b => a.1 ≤ b.1).findSome? problem?

/-- The number under a key, or a default. -/
def setting (t : Toml.Table) (key : String) (default : Nat) : Nat :=
  match (t.get? key).map natural with
  | some (.ok n) => n
  | _ => default

/-- No table can be built without a slot. -/
def validate (s : Settings) : Except Fault Unit :=
  if s.boundedCapacity = 0 then .error .zeroBoundedCapacity else .ok ()

def ofTable (t : Toml.Table) : Except Fault Settings := do
  if let some fault := firstProblem? t then throw fault
  let s : Settings :=
    { registryCapacity := setting t registryKey 16, boundedCapacity := setting t boundedKey 30 }
  s.validate
  return s

/-- Settings from a text, whatever reader makes a table of it. -/
def read (text : String) (reader : Toml.DocumentReader := Toml.Document.read?) :
    Except Fault Settings :=
  match reader text with
  | some t => ofTable t
  | none => .error .malformedSettings

def quoted (s : Settings) : String :=
  Text.record "TrackingConfig"
    [(registryKey, toString s.registryCapacity), (boundedKey, toString s.boundedCapacity)]

end Settings

end WorkTracking
