import WorkTracking.MemberSet.View
import WorkTracking.Report
import WorkTracking.Vocabulary.Basic

/-!
Workspaces: any number of vocabularies, pins and sets under names, and what can be done with them.
A `Command` may change the workspace, a `Query` only reads it. Several sets may share a vocabulary;
making something under a name that is taken leaves the sets over an older vocabulary as they are.
-/
namespace WorkTracking.MemberSet

/-- `named` holds the numbers of the vocabularies that have a name now. -/
structure Workspace (V : Type) [BEq V] [Hashable V] where
  vocabularies : Array (Vocabulary V) := #[]
  named : OrderedMap String Nat := .empty
  pins : OrderedMap String (Pin V) := .empty
  sets : OrderedMap String MemberSet := .empty

inductive Command (V : Type) where
  | newVocabulary (u : String)
  | register (u : String) (v : V)
  | registerRaced (u : String) (v : V) (others : List V)
  | registerAll (u : String) (vs : List V)
  | registerProduced (u : String) (pairs : List (V × V))
  | pin (p u : String)
  | copyPin (p q : String)
  | newSet (s u : String)
  | copySet (s t : String)
  | freeze (f s : String)
  | insert (s : String) (v : V)
  | erase (s : String) (v : V)
  | insertAll (s : String) (vs : List V)
  /-- adds the members of `t` -/
  | insertMembers (s t : String)
  /-- adds values without asking what changed -/
  | extend (s : String) (vs : List V)
  | clear (s : String)
  | tryInsert (s : String) (v : V)
  | tryErase (s : String) (v : V)
  | tryInsertAll (s : String) (vs : List V)
  | tryClear (s : String)
  | tryRetainAll (s : String) (vs : List V)
  | tryRemoveAll (s : String) (vs : List V)
  /-- takes `k` members, registers `vs` in the vocabulary of `s`, then takes the other members -/
  | walkWhileGrowing (s : String) (k : Nat) (vs : List V)

/-- Questions to one edition. -/
inductive EditionQuery (V : Type) where
  | ordinal (v : V)
  | value (i : Nat)
  | values
  | size
  | isEmpty

/-- Questions to one set, the last five of them about its bitmap. -/
inductive SetQuery (V : Type) where
  | contains (v : V)
  | size
  | isEmpty
  | members
  | plain
  | quoted
  | containsValues (vs : List V)
  | positions
  | hasPosition (i : Nat)
  | nextPosition (i : Nat)
  | countPositions
  | blank (n : Nat)

/-- Questions to two sets, the last two of them about their bitmaps. -/
inductive PairQuery where
  | containsAll
  | equal
  | sameHash
  | sameVocabulary
  | subsetPositions
  | equalPositions

inductive Query (V : Type) where
  | vocabulary (u : String) (question : EditionQuery V)
  | quotedVocabulary (u : String)
  | pin (p : String) (question : EditionQuery V)
  | isCurrent (p u : String)
  | set (s : String) (question : SetQuery V)
  /-- the members of a working set as one list -/
  | toList (s : String)
  | pair (s t : String) (question : PairQuery)

inductive Reply (V : Type) where
  | done
  | flag (b : Bool)
  | flags (bs : List Bool)
  | number (n : Nat)
  | place (i : Option Nat)
  | value (v : Option V)
  | values (vs : List V)
  | text (s : String)
  /-- how many positions a bitmap has, and whether it has none -/
  | extent (count : Nat) (isEmpty : Bool)
  /-- how a blank bitmap compares, and how many positions it has -/
  | blankness (bs : List Bool) (count : Nat)
  | walk (head tail : List V) (after : Option V)
  | refused (fault : Fault)

structure Outcome (V : Type) [BEq V] [Hashable V] where
  workspace : Workspace V
  reply : Reply V
  growth : List Growth := []

variable {V : Type} [DecidableEq V] [Hashable V]

namespace EditionQuery

def answer (e : Edition V) : EditionQuery V → Reply V
  | ordinal v => .place (e.ordinal? v)
  | value i => .value (e.value? i)
  | values => .values e.toList
  | size => .number e.size
  | isEmpty => .flag e.isEmpty

end EditionQuery

namespace SetQuery

def answer [Rendered V] (digest : WordDigest) (s : SetView V) : SetQuery V → Reply V
  | contains v => .flag (s.contains v)
  | size => .number s.size
  | isEmpty => .flag s.isEmpty
  | members => .values s.toList
  | plain => .text s.plain
  | quoted => .text s.quoted
  | containsValues vs => .flag (s.containsValues vs)
  | positions => .text s.members.quoted
  | hasPosition i => .flag (s.members.contains i)
  | nextPosition i => .place (s.members.next? i)
  | countPositions => .extent s.members.count s.members.isEmpty
  | blank n =>
    let b := Bitmap.blank n
    .blankness
      [b == s.members, b.fingerprint digest == s.members.fingerprint digest,
        b.isSubset s.members, s.members.isSubset b]
      b.count

end SetQuery

namespace PairQuery

def answer (digest : WordDigest) (s t : SetView V) : PairQuery → Reply V
  | containsAll => .flag (s.containsAll t)
  | equal => .flag (s == t)
  | sameHash => .flag (s.set.fingerprint digest == t.set.fingerprint digest)
  | sameVocabulary => .flag (s.sameVocabulary t)
  | subsetPositions => .flag (s.members.isSubset t.members)
  | equalPositions =>
    let fingerprints := s.members.fingerprint digest == t.members.fingerprint digest
    .flags [s.members == t.members, fingerprints, fingerprints]

end PairQuery

namespace Workspace

variable (w : Workspace V)

/-- The vocabulary with a number. A number not given out yet is that of an empty vocabulary. -/
def vocabularyAt (id : Nat) : Vocabulary V := w.vocabularies.getD id { id }

def vocabulary (u : String) : Except Misuse (Vocabulary V) :=
  w.vocabularyAt <$> w.named.named u

def pinned (p : String) : Except Misuse (Pin V) := w.pins.named p

def memberSet (s : String) : Except Misuse MemberSet := w.sets.named s

def workingSet (s : String) : Except Misuse WorkingSet := do
  match ← w.memberSet s with
  | .working set => return set
  | .frozen _ => throw (.frozenSet s)

/-- A set together with its vocabulary as it is now. -/
def viewOf (s : MemberSet) : SetView V := ⟨w.vocabularyAt s.vocabulary, s⟩

def view (s : String) : Except Misuse (SetView V) := w.viewOf <$> w.memberSet s

def addVocabulary (u : String) : Workspace V :=
  { w with
    vocabularies := w.vocabularies.push { id := w.vocabularies.size }
    named := w.named.insert u w.vocabularies.size }

def setVocabulary (u : Vocabulary V) : Workspace V :=
  { w with vocabularies := w.vocabularies.setIfInBounds u.id u }

def setPin (name : String) (p : Pin V) : Workspace V := { w with pins := w.pins.insert name p }

def setSet (name : String) (s : MemberSet) : Workspace V :=
  { w with sets := w.sets.insert name s }

/-- The vocabulary has grown; `reply` says what else is worth knowing. -/
def afterGrowth (r : Vocabulary.Grown V) (reply : Reply V) : Outcome V :=
  { workspace := w.setVocabulary r.vocabulary, reply, growth := r.growth }

/-- The set `s` has been added to. -/
def afterAddition (s : String) (r : WorkingSet.Addition V) (reply : Reply V) : Outcome V :=
  { workspace := (w.setVocabulary r.vocabulary).setSet s (.working r.set)
    reply
    growth := r.growth }

/-- The set `s` has been changed, and its vocabulary has not. -/
def afterUpdate (s : String) (r : WorkingSet.Update) : Outcome V :=
  { workspace := w.setSet s (.working r.set), reply := .flag r.changed }

def unchanged (reply : Reply V) : Outcome V := { workspace := w, reply }

/-- Adds values to a working set that goes by the name `s`. -/
def addTo (s : String) (set : WorkingSet) (vs : List V) (reply : Bool → Reply V) : Outcome V :=
  let r := set.insertAll (w.vocabularyAt set.vocabulary) vs
  w.afterAddition s r (reply r.changed)

/-- An operation that frozen sets refuse. -/
def attempt (s : String) (operation : Operation) (change : WorkingSet → Outcome V) :
    Except Misuse (Outcome V) := do
  match (← w.memberSet s).changeable operation with
  | .ok set => return change set
  | .error fault => return w.unchanged (.refused fault)

/-- An operation that sets of neither kind offer. -/
def refuse (s : String) (operation : Operation) : Except Misuse (Outcome V) := do
  let set ← w.memberSet s
  return w.unchanged (.refused (.unsupported set.container operation))

def insertInto (s : String) (v : V) (set : WorkingSet) : Outcome V :=
  let r := set.insert (w.vocabularyAt set.vocabulary) v
  w.afterAddition s r (.flag r.changed)

def eraseFrom (s : String) (v : V) (set : WorkingSet) : Outcome V :=
  w.afterUpdate s (set.erase (w.vocabularyAt set.vocabulary) v)

def clearOut (s : String) (set : WorkingSet) : Outcome V :=
  { workspace := w.setSet s (.working set.clear), reply := .done }

def perform (digest : WordDigest) : Command V → Except Misuse (Outcome V)
  | .newVocabulary u => return { workspace := w.addVocabulary u, reply := .done }
  | .register u v => do
    let r := (← w.vocabulary u).register v
    return w.afterGrowth r.toGrown (.number r.ordinal)
  | .registerRaced u v others => do
    let r := (← w.vocabulary u).registerRaced v others
    return w.afterGrowth r.toGrown (.number r.ordinal)
  | .registerAll u vs => do
    let r := (← w.vocabulary u).registerAll vs
    return w.afterGrowth r (.number r.vocabulary.size)
  | .registerProduced u pairs => do
    let r := (← w.vocabulary u).registerProduced pairs
    return w.afterGrowth r (.number r.vocabulary.size)
  | .pin p u => do
    let pin := (← w.vocabulary u).pin
    return { workspace := w.setPin p pin, reply := .number pin.edition.size }
  | .copyPin p q => do
    return { workspace := w.setPin p (← w.pinned q).copy, reply := .done }
  | .newSet s u => do
    return { workspace := w.setSet s (.working (.emptyOver (← w.vocabulary u))), reply := .done }
  | .copySet s t => do
    return { workspace := w.setSet s (← w.memberSet t), reply := .done }
  | .freeze f s => do
    let frozen := (← w.workingSet s).freeze digest
    return { workspace := w.setSet f (.frozen frozen), reply := .number frozen.size }
  | .insert s v => do return w.insertInto s v (← w.workingSet s)
  | .erase s v => do return w.eraseFrom s v (← w.workingSet s)
  | .insertAll s vs => do return w.addTo s (← w.workingSet s) vs .flag
  | .insertMembers s t => do return w.addTo s (← w.workingSet s) (← w.view t).toList .flag
  | .extend s vs => do return w.addTo s (← w.workingSet s) vs fun _ => .done
  | .clear s => do return w.clearOut s (← w.workingSet s)
  | .tryInsert s v => w.attempt s .add (w.insertInto s v)
  | .tryErase s v => w.attempt s .remove (w.eraseFrom s v)
  | .tryInsertAll s vs => w.attempt s .addAll fun set => w.addTo s set vs .flag
  | .tryClear s => w.attempt s .clear (w.clearOut s)
  | .tryRetainAll s _ => w.refuse s .retainAll
  | .tryRemoveAll s _ => w.refuse s .removeAll
  | .walkWhileGrowing s k vs => do
    let view ← w.view s
    let (head, middle) := view.traverse.take k
    let (tail, last) := middle.drain
    return w.afterGrowth (view.vocabulary.registerAll vs) (.walk head tail last.next.1)

def answer [Rendered V] (digest : WordDigest) : Query V → Except Misuse (Reply V)
  | .vocabulary u question => do return question.answer (← w.vocabulary u).current
  | .quotedVocabulary u => do return .text (← w.vocabulary u).quoted
  | .pin p question => do return question.answer (← w.pinned p).edition
  | .isCurrent p u => do return .flag ((← w.pinned p).isCurrent (← w.vocabulary u))
  | .set s question => do return question.answer digest (← w.view s)
  | .toList s => do
    let _ ← w.workingSet s
    return .refused (.unsupported .workingSet .toList)
  | .pair s t question => do return question.answer digest (← w.view s) (← w.view t)

end Workspace

end WorkTracking.MemberSet
