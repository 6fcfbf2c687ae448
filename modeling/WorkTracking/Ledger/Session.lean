import WorkTracking.Ledger.Basic
import WorkTracking.Report
import WorkTracking.Text.Printed
import WorkTracking.Value

/-!
Sessions: one ledger with the commands and queries of its connection. Answers list statements and
cursors in the order of the values they are shown by, so that no answer depends on the arrangement
inside the ledger. Where an answer would depend on which statement took the first place, that place
is `unsettled` and the answer is withheld.
-/
namespace WorkTracking.Ledger

structure Session (T : Type) [BEq T] where
  ledger : Ledger T T := {}
  unsettled : Bool := false

inductive Command (T : Type) where
  | register (s : T)
  /-- opens the cursor set of a statement and changes nothing in it -/
  | touch (s : T)
  | openCursor (s c : T)
  | closeCursor (s c : T)
  | openAll (s : T) (cs : List T)
  /-- removes a statement; `choice` picks the one that becomes first if need be -/
  | remove (s : T) (choice : Nat)
  | clear

inductive Query (T : Type) where
  | cursors (s : T)
  | contains (s : T)
  | visit
  | size
  | quoted

inductive Reply (T : Type) where
  | done
  | flag (b : Bool)
  | number (n : Nat)
  | cursors (cs : Option (List T))
  | visit (first : Option T) (all : List (T × List T))
  | extent (size : Nat) (isEmpty hasStatements : Bool)
  | text (s : Option String)
  | refused (fault : Fault)

structure Outcome (T : Type) [BEq T] where
  session : Session T
  reply : Reply T
  notices : List Log.Notice := []

namespace Command

/-- The command about other statements and cursors, found one by one. -/
def mapM {m : Type → Type} [Monad m] {α β : Type} (f : α → m β) : Command α → m (Command β)
  | register s => register <$> f s
  | touch s => touch <$> f s
  | openCursor s c => return openCursor (← f s) (← f c)
  | closeCursor s c => return closeCursor (← f s) (← f c)
  | openAll s cs => return openAll (← f s) (← cs.mapM f)
  | remove s choice => return remove (← f s) choice
  | clear => return clear

end Command

namespace Query

def mapM {m : Type → Type} [Monad m] {α β : Type} (f : α → m β) : Query α → m (Query β)
  | cursors s => cursors <$> f s
  | contains s => contains <$> f s
  | visit => return visit
  | size => return size
  | quoted => return quoted

end Query

namespace Session

variable {T : Type} [BEq T] [Shown T] [Rendered T]

/-- The cursors of a set, in the order of the values they are shown by. -/
def sortedCursors (s : CursorSet T) : List T := Value.sorted Shown.shown s.members

/-- What is noted when a cursor is opened under an unknown statement. -/
def healingNotice (s : T) : Log.Notice :=
  ⟨.debug, "cursor opened on an unregistered statement; registering it",
    [("statement", .text (Rendered.quoted s))]⟩

/-- Changes the cursors of `s`; `reply` tells from the sets before and after. -/
def change (x : Session T) (s : T) (f : CursorSet T → CursorSet T)
    (reply : CursorSet T → CursorSet T → Reply T) : Outcome T :=
  let opened := x.ledger.openCursors s f
  { session := { x with ledger := opened.ledger }
    reply := reply opened.before opened.after
    notices := if opened.healed then [healingNotice s] else [] }

/-- Removes `s`. With several statements left, the first place is unsettled after its statement has
gone, and stays so. -/
def remove (x : Session T) (s : T) (choice : Nat) : Outcome T :=
  match x.ledger.remove s choice with
  | none => { session := x, reply := .cursors none }
  | some removed =>
    let wasFirst := x.ledger.first?.any (· == s)
    { session :=
        { ledger := removed.ledger
          unsettled := removed.ledger.size > 1 && (x.unsettled || wasFirst) }
      reply := .cursors (some (sortedCursors removed.cursors)) }

def perform (x : Session T) : Command T → Outcome T
  | .register s =>
    match x.ledger.register s with
    | some ledger => { session := { x with ledger }, reply := .done }
    | none => { session := x, reply := .refused (.alreadyRegistered (Rendered.quoted s)) }
  | .touch s => x.change s (fun set => set) fun _ after => .number after.size
  | .openCursor s c => x.change s (·.insert c) fun before _ => .flag (!before.contains c)
  | .closeCursor s c => x.change s (·.erase c) fun before _ => .flag (before.contains c)
  | .openAll s cs => x.change s (·.insertAll cs) fun _ after => .number after.size
  | .remove s choice => x.remove s choice
  | .clear => { session := { ledger := x.ledger.clear, unsettled := false }, reply := .done }

/-- Every live statement with its cursors, in the order of the values they are shown by. -/
def visited (x : Session T) : List (T × List T) :=
  Value.sorted (fun e => Shown.shown e.1)
    (x.ledger.visits.map fun (s, set) => (s, sortedCursors set))

def firstSettled (x : Session T) : Option T := if x.unsettled then none else x.ledger.first?

def quotedCursors : Option (CursorSet T) → String
  | none => "None"
  | some set => "Some(" ++ Text.braced (set.members.map Rendered.quoted) ++ ")"

/-- Whether the quoted form can come out in one way only. -/
def isSettled (x : Session T) : Bool :=
  !x.unsettled && x.ledger.size ≤ 2 &&
    x.ledger.toList.all fun (_, set) => (set.map CursorSet.size).getD 0 ≤ 1

def quoted? (x : Session T) : Option String :=
  if x.isSettled then
    some (Text.mapping (x.ledger.toList.map fun (s, set) => (Rendered.quoted s, quotedCursors set)))
  else none

def answer (x : Session T) : Query T → Reply T
  | .cursors s => .cursors ((x.ledger.cursors? s).map sortedCursors)
  | .contains s => .flag (x.ledger.contains s)
  | .visit => .visit x.firstSettled x.visited
  | .size => .extent x.ledger.size x.ledger.isEmpty x.ledger.hasStatements
  | .quoted => .text x.quoted?

end Session

end WorkTracking.Ledger
