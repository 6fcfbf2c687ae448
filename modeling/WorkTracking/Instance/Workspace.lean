import WorkTracking.Instance.Command
import WorkTracking.Instance.Naming

/-!
Workspaces: named instances, and any number of named registries, slot tables and snapshots that hold
them. A `Command` may change the workspace, a `Query` only reads it.
-/
namespace WorkTracking.Instance

/-- `registriesMade` numbers the registries, so that each has snapshots of its own. -/
structure Workspace (K V : Type) where
  naming : Naming K := {}
  registriesMade : Nat := 0
  registries : OrderedMap String (Registry K V) := .empty
  tables : OrderedMap String (SlotTable K V) := .empty
  snapshots : OrderedMap String (Snapshot K V) := .empty

inductive Command (K V : Type) where
  | newInstance (h : String) (payload : K)
  | addName (name h : String)
  | newRegistry (r : String)
  | newRegistryFrom (r : String) (entries : List (Key K × V))
  /-- a registry sized by a settings document -/
  | newRegistryBy (r settings : String)
  | registry (r : String) (command : Registry.Command (Key K) V)
  /-- keeps a snapshot of `r` under a name -/
  | keepSnapshot (e r : String)
  | newTable (t : String) (capacity : Nat)
  | newStandardTable (t : String)
  /-- a table sized by a settings document -/
  | newTableBy (t settings : String)
  | copyTable (t s : String)
  /-- keeps under `t` a copy of `s` with another capacity -/
  | resizeTable (t s : String) (capacity : Nat)
  /-- turns the table `t` into a registry -/
  | promote (r t : String)
  | table (t : String) (command : SlotTable.Command (Key K) V)

inductive Query (K V : Type) where
  | compare (a b : Key K)
  | registry (r : String) (question : Registry.Query (Key K) V)
  | table (t : String) (question : SlotTable.Query (Key K) V)
  | snapshot (e : String)
  | sameSnapshot (e f : String)
  /-- whether entry `i` of one registry equals entry `j` of another, as entries on their own -/
  | sameEntry (r : String) (i : Nat) (s : String) (j : Nat)
  | settings (document : String)

structure Outcome (K V : Type) where
  workspace : Workspace K V
  reply : Reply K V
  notices : List Log.Notice := []

variable {K V : Type}

def compare [BEq K] [Rendered K] (a b : Instance K) : Comparison K where
  first := a
  second := b
  same := a == b
  sameAddress := a.id == b.id
  sameHash := hash a == hash b
  sameValue := a.payload == b.payload
  sameCopy := a == a
  plain := Rendered.plain a
  quoted := Rendered.quoted a

namespace Workspace

variable (w : Workspace K V)

def setRegistry (name : String) (r : Registry K V) : Workspace K V :=
  { w with registries := w.registries.insert name r }

def setTable (name : String) (t : SlotTable K V) : Workspace K V :=
  { w with tables := w.tables.insert name t }

/-- Finds the instances in a request; those made on the spot stay made. -/
def resolving {α : Type} (request : StateT (Naming K) (Except Misuse) α) :
    Except Misuse (α × Workspace K V) := do
  let (a, naming) ← request w.naming
  return (a, { w with naming })

/-- Keeps a new registry under a name; `make` gets its number. -/
def addRegistry (name : String) (make : Nat → Registry K V) : Outcome K V :=
  let r := make w.registriesMade
  { workspace := { w.setRegistry name r with registriesMade := w.registriesMade + 1 }
    reply := .number r.size }

/-- Keeps a new table under a name, unless there is a fault. -/
def addTable (name : String) : Except Fault (SlotTable K V) → Outcome K V
  | .ok t => { workspace := w.setTable name t, reply := .number t.capacity }
  | .error fault => { workspace := w, reply := .refused fault }

def perform : Command K V → Except Misuse (Outcome K V)
  | .newInstance h payload =>
    return { workspace := { w with naming := w.naming.create h payload }, reply := .done }
  | .addName name h => do
    return { workspace := { w with naming := ← w.naming.addName name h }, reply := .done }
  | .newRegistry r => return w.addRegistry r fun id => { id }
  | .newRegistryFrom r entries => do
    let (entries, w) ← w.resolving (entries.mapM fun (k, v) => return (← Naming.resolve k, v))
    return w.addRegistry r fun id => .ofList id entries
  | .newRegistryBy r settings =>
    match Settings.read settings with
    | .ok _ => return w.addRegistry r fun id => { id }
    | .error fault => return { workspace := w, reply := .refused fault }
  | .registry r command => do
    let (command, w) ← w.resolving (command.mapM Naming.resolve)
    let outcome := (← w.registries.named r).perform command
    return { workspace := w.setRegistry r outcome.registry, reply := outcome.reply }
  | .keepSnapshot e r => do
    let snapped := (← w.registries.named r).snapshot
    let w := w.setRegistry r snapped.registry
    return { workspace := { w with snapshots := w.snapshots.insert e snapped.snapshot }
             reply := .snapshot snapped.snapshot }
  | .newTable t capacity => return w.addTable t (SlotTable.ofCapacity capacity)
  | .newStandardTable t => return w.addTable t (.ok .standard)
  | .newTableBy t settings => return w.addTable t (Settings.read settings >>= SlotTable.ofSettings)
  | .copyTable t s => do return w.addTable t (.ok (← w.tables.named s))
  | .resizeTable t s capacity => do return w.addTable t ((← w.tables.named s).resized capacity)
  | .promote r t => do
    let table ← w.tables.named t
    let without : Workspace K V := { w with tables := w.tables.erase t }
    return without.addRegistry r table.toRegistry
  | .table t command => do
    let (command, w) ← w.resolving (command.mapM Naming.resolve)
    let outcome := (← w.tables.named t).perform command
    return { workspace := w.setTable t outcome.table
             reply := outcome.reply
             notices := outcome.notices }

variable [BEq K] [BEq V] [Rendered K] [Rendered V]

def answer : Query K V → Except Misuse (Reply K V)
  | .compare a b => do
    let ((a, b), _) ← w.resolving do return (← Naming.resolve a, ← Naming.resolve b)
    return .comparison (compare a b)
  | .registry r question => do
    let (question, _) ← w.resolving (question.mapM Naming.resolve)
    return (← w.registries.named r).answer question
  | .table t question => do
    let (question, _) ← w.resolving (question.mapM Naming.resolve)
    return (← w.tables.named t).answer question
  | .snapshot e => do return .snapshot (← w.snapshots.named e)
  | .sameSnapshot e f => do
    return .flag ((← w.snapshots.named e).same (← w.snapshots.named f))
  | .sameEntry r i s j => do
    let first := (← w.registries.named r).entrySet[i]?
    let second := (← w.registries.named s).entrySet[j]?
    return .verdict (first.bind fun a => second.map (a == ·))
  | .settings document =>
    match Settings.read document with
    | .ok s => return .settings s
    | .error fault => return .refused fault

end Workspace

end WorkTracking.Instance
