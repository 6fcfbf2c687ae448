import WorkTracking.Instance.Basic
import WorkTracking.Report

/-!
Names for instances. Every instance made gets the next identity; several names may lead to one
instance, and its label stays the name it was made under.
-/
namespace WorkTracking

structure Naming (K : Type) where
  made : Nat := 0
  named : OrderedMap String (Instance K) := .empty

/-- How an instance is asked for: by name, or as one made on the spot, which has no name. -/
inductive Key (K : Type) where
  | named (name : String)
  | fresh (payload : K)

namespace Naming

variable {K : Type}

/-- An instance that nothing else holds. -/
def next (n : Naming K) (label : String) (payload : K) : Instance K :=
  { id := n.made, label, payload }

def create (n : Naming K) (name : String) (payload : K) : Naming K where
  made := n.made + 1
  named := n.named.insert name (n.next name payload)

def instanceNamed (n : Naming K) (name : String) : Except Misuse (Instance K) := n.named.named name

/-- Gives the instance `old` another name. -/
def addName (n : Naming K) (name old : String) : Except Misuse (Naming K) := do
  return { n with named := n.named.insert name (← n.instanceNamed old) }

/-- Finds the instance asked for, or makes it. -/
def resolve : Key K → StateT (Naming K) (Except Misuse) (Instance K)
  | .named name => do (← get).instanceNamed name
  | .fresh payload => do
    let n ← get
    set { n with made := n.made + 1 }
    return n.next "" payload

end Naming

end WorkTracking
