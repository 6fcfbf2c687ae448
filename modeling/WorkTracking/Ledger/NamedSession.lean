import WorkTracking.Instance.Naming
import WorkTracking.Ledger.Session

/-!
Sessions whose statements and cursors are instances, asked for by name.
-/
namespace WorkTracking.Ledger

structure NamedSession (K : Type) where
  naming : Naming K := {}
  session : Session (Instance K) := {}

inductive NamingCommand (K : Type) where
  | newInstance (h : String) (payload : K)
  | addName (name h : String)

namespace NamedSession

variable {K : Type}

def performNaming (x : NamedSession K) : NamingCommand K → Except Misuse (NamedSession K)
  | .newInstance h payload => return { x with naming := x.naming.create h payload }
  | .addName name h => do return { x with naming := ← x.naming.addName name h }

/-- A named session after a command to its session. -/
structure NamedOutcome (K : Type) where
  session : NamedSession K
  reply : Reply (Instance K)
  notices : List Log.Notice

variable [Rendered K]

def perform (x : NamedSession K) (command : Command String) : Except Misuse (NamedOutcome K) := do
  let outcome := x.session.perform (← command.mapM x.naming.instanceNamed)
  return { session := { x with session := outcome.session }
           reply := outcome.reply
           notices := outcome.notices }

def answer (x : NamedSession K) (query : Query String) : Except Misuse (Reply (Instance K)) := do
  return x.session.answer (← query.mapM x.naming.instanceNamed)

end NamedSession

end WorkTracking.Ledger
