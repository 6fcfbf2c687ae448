import WorkTracking.Proofs.MemberSet.History

/-!
Plain sets: the same commands on finite sets of values, without vocabularies, ordinals or bitmaps. A
copy of a set, frozen or not, is a set of its own. Runs of workspaces and runs of plain sets go in
step: they give the same replies, and every set of a workspace reads as its plain namesake.
-/
namespace WorkTracking

variable {V : Type} [DecidableEq V] [Hashable V]

namespace MemberSet

structure PlainSet (V : Type) where
  frozen : Bool
  members : Finset V

/-- Plain sets by name, and which names vocabularies and pins go by. -/
structure PlainSets (V : Type) where
  vocabularies : String → Bool := fun _ => false
  pins : String → Bool := fun _ => false
  sets : String → Option (PlainSet V) := fun _ => none

/-- Plain sets after a command, and the reply. A reply that tells of a vocabulary, an edition or an
order of members is left open. -/
structure PlainOutcome (V : Type) where
  sets : PlainSets V
  reply : Option (Reply V)

namespace PlainSets

variable (m : PlainSets V)

def vocabulary (u : String) : Except Misuse Unit :=
  if m.vocabularies u then .ok () else .error (.unknownName u)

def pinned (p : String) : Except Misuse Unit :=
  if m.pins p then .ok () else .error (.unknownName p)

def lookup (s : String) : Except Misuse (PlainSet V) :=
  match m.sets s with
  | some x => .ok x
  | none => .error (.unknownName s)

def working (s : String) : Except Misuse (Finset V) :=
  match m.sets s with
  | some ⟨false, x⟩ => .ok x
  | some ⟨true, _⟩ => .error (.frozenSet s)
  | none => .error (.unknownName s)

def put (s : String) (x : PlainSet V) : PlainSets V :=
  { m with sets := Function.update m.sets s (some x) }

def addTo (s : String) (x y : Finset V) (reply : Bool → Reply V) : PlainOutcome V :=
  ⟨m.put s ⟨false, x ∪ y⟩, some (reply (decide (¬ y ⊆ x)))⟩

def eraseFrom (s : String) (v : V) (x : Finset V) : PlainOutcome V :=
  ⟨m.put s ⟨false, x.erase v⟩, some (.flag (decide (v ∈ x)))⟩

def clearOut (s : String) : PlainOutcome V := ⟨m.put s ⟨false, ∅⟩, some .done⟩

def attempt (s : String) (operation : Operation) (f : Finset V → PlainOutcome V) :
    Except Misuse (PlainOutcome V) :=
  match m.sets s with
  | some ⟨false, x⟩ => .ok (f x)
  | some ⟨true, _⟩ => .ok ⟨m, some (.refused (.unsupported .frozenSet operation))⟩
  | none => .error (.unknownName s)

def refuse (s : String) (operation : Operation) : Except Misuse (PlainOutcome V) :=
  match m.sets s with
  | some x =>
    let container := if x.frozen then Container.frozenSet else Container.workingSet
    .ok ⟨m, some (.refused (.unsupported container operation))⟩
  | none => .error (.unknownName s)

def perform : Command V → Except Misuse (PlainOutcome V)
  | .newVocabulary u =>
    .ok ⟨{ m with vocabularies := Function.update m.vocabularies u true }, some .done⟩
  | .register u _ | .registerRaced u _ _ | .registerAll u _ | .registerProduced u _ => do
    m.vocabulary u
    return ⟨m, none⟩
  | .pin p u => do
    m.vocabulary u
    return ⟨{ m with pins := Function.update m.pins p true }, none⟩
  | .copyPin p q => do
    m.pinned q
    return ⟨{ m with pins := Function.update m.pins p true }, some .done⟩
  | .newSet s u => do
    m.vocabulary u
    return ⟨m.put s ⟨false, ∅⟩, some .done⟩
  | .copySet s t => do return ⟨m.put s (← m.lookup t), some .done⟩
  | .freeze f s => do
    let x ← m.working s
    return ⟨m.put f ⟨true, x⟩, some (.number x.card)⟩
  | .insert s v => do return m.addTo s (← m.working s) {v} .flag
  | .erase s v => do return m.eraseFrom s v (← m.working s)
  | .insertAll s vs => do return m.addTo s (← m.working s) vs.toFinset .flag
  | .insertMembers s t => do return m.addTo s (← m.working s) (← m.lookup t).members .flag
  | .extend s vs => do return m.addTo s (← m.working s) vs.toFinset fun _ => .done
  | .clear s => do
    let _ ← m.working s
    return m.clearOut s
  | .tryInsert s v => m.attempt s .add fun x => m.addTo s x {v} .flag
  | .tryErase s v => m.attempt s .remove (m.eraseFrom s v)
  | .tryInsertAll s vs => m.attempt s .addAll fun x => m.addTo s x vs.toFinset .flag
  | .tryClear s => m.attempt s .clear fun _ => m.clearOut s
  | .tryRetainAll s _ => m.refuse s .retainAll
  | .tryRemoveAll s _ => m.refuse s .removeAll
  | .walkWhileGrowing s _ _ => do
    let _ ← m.lookup s
    return ⟨m, none⟩

def step (m : PlainSets V) (c : Command V) : PlainSets V :=
  match m.perform c with
  | .ok outcome => outcome.sets
  | .error _ => m

def run (m : PlainSets V) (cs : List (Command V)) : PlainSets V := cs.foldl step m

def transcript (m : PlainSets V) : List (Command V) → List (Except Misuse (Option (Reply V)))
  | [] => []
  | c :: cs => (m.perform c).map PlainOutcome.reply :: (m.step c).transcript cs

end PlainSets

/-- What is to be read off a set without regard to order. -/
structure Reading (V : Type) where
  contains : V → Bool
  size : Nat
  isEmpty : Bool
  containsValues : List V → Bool

def PlainSet.reading (x : PlainSet V) : Reading V where
  contains v := decide (v ∈ x.members)
  size := x.members.card
  isEmpty := decide (x.members = ∅)
  containsValues vs := decide (∀ v ∈ vs, v ∈ x.members)

end MemberSet

def SetView.reading (s : SetView V) : MemberSet.Reading V :=
  ⟨s.contains, s.size, s.isEmpty, s.containsValues⟩

end WorkTracking
