import WorkTracking.Proofs.Identities
import WorkTracking.Proofs.Ledger.Indifference

/-!
Units of work: registries, slot tables and ledgers that hold the same named instances, as keys, as
statements and as cursors. Two runs of the same calls whose instances have other payloads, whichever
of these are equal to each other, get the same answers up to the payloads. Only printed forms, and
what compares payloads, can come out differently.
-/
namespace WorkTracking

/-- A workspace, and ledgers whose statements and cursors are instances of it. -/
structure UnitOfWork (K V : Type) where
  workspace : Instance.Workspace K V := {}
  ledgers : OrderedMap String (Ledger.Session (Instance K)) := .empty

namespace UnitOfWork

inductive Call (K V : Type) where
  | command (c : Instance.Command K V)
  | query (q : Instance.Query K V)
  | newLedger (l : String)
  | ledgerCommand (l : String) (c : Ledger.Command String)
  | ledgerQuery (l : String) (q : Ledger.Query String)

inductive Answer (K V : Type) where
  | done
  | workspace (reply : Instance.Reply K V) (notices : List Log.Notice)
  | ledger (reply : Ledger.Reply (Instance K)) (notices : List Log.Notice)

structure Outcome (K V : Type) where
  state : UnitOfWork K V
  answer : Answer K V

variable {K L V : Type}

def setLedger (u : UnitOfWork K V) (name : String) (x : Ledger.Session (Instance K)) :
    UnitOfWork K V :=
  { u with ledgers := u.ledgers.insert name x }

/-- A ledger under a name, with the names of the workspace. -/
def named (u : UnitOfWork K V) (name : String) : Except Misuse (Ledger.NamedSession K) := do
  return { naming := u.workspace.naming, session := ← u.ledgers.named name }

section Perform

variable [BEq K] [BEq V] [Rendered K] [Rendered V]

def perform (u : UnitOfWork K V) : Call K V → Except Misuse (Outcome K V)
  | .command c => do
    let o ← u.workspace.perform c
    return { state := { u with workspace := o.workspace }, answer := .workspace o.reply o.notices }
  | .query q => do return { state := u, answer := .workspace (← u.workspace.answer q) [] }
  | .newLedger l => return { state := u.setLedger l {}, answer := .done }
  | .ledgerCommand l c => do
    let o ← (← u.named l).perform c
    return { state := u.setLedger l o.session.session, answer := .ledger o.reply o.notices }
  | .ledgerQuery l q => do return { state := u, answer := .ledger (← (← u.named l).answer q) [] }

/-- A misuse leaves everything as it is. -/
def after (u : UnitOfWork K V) (c : Call K V) : UnitOfWork K V :=
  match u.perform c with
  | .ok o => o.state
  | .error _ => u

def run (u : UnitOfWork K V) (cs : List (Call K V)) : UnitOfWork K V := cs.foldl after u

/-- What is answered to calls made one after another. -/
def transcript (u : UnitOfWork K V) : List (Call K V) → List (Except Misuse (Answer K V))
  | [] => []
  | c :: cs => (u.perform c).map Outcome.answer :: (u.after c).transcript cs

end Perform

/-! ### Other payloads -/

def map (f : K → L) (u : UnitOfWork K V) : UnitOfWork L V where
  workspace := u.workspace.map f
  ledgers := u.ledgers.mapValues (Ledger.Session.map f)

def Call.map (f : K → L) : Call K V → Call L V
  | command c => command (c.map f)
  | query q => query (q.map f)
  | newLedger l => newLedger l
  | ledgerCommand l c => ledgerCommand l c
  | ledgerQuery l q => ledgerQuery l q

namespace Answer

def map (f : K → L) : Answer K V → Answer L V
  | done => done
  | workspace reply notices => workspace (reply.map f) notices
  | ledger reply notices => ledger (reply.map (Instance.map f)) notices

/-- The answer without printed forms and without what compares payloads. -/
def blank : Answer K V → Answer K V
  | done => done
  | workspace reply notices => workspace reply.blank notices
  | ledger reply notices => ledger reply.blank (notices.map Log.Notice.blank)

end Answer

namespace Outcome

def map (f : K → L) (o : Outcome K V) : Outcome L V := ⟨o.state.map f, o.answer.map f⟩

def blank (o : Outcome K V) : Outcome K V := ⟨o.state, o.answer.blank⟩

end Outcome

variable (f : K → L) (u : UnitOfWork K V)

theorem setLedger_map (name : String) (x : Ledger.Session (Instance K)) :
    (u.map f).setLedger name (x.map f) = (u.setLedger name x).map f := by
  have hledgers := u.ledgers.insert_mapValues (Ledger.Session.map f) name x
  simp only [setLedger, map, ← hledgers]

theorem named_map (name : String) :
    (u.map f).named name = (u.named name).map (Ledger.NamedSession.map f) := by
  simp only [named, map, OrderedMap.named_mapValues]
  exact bind_map_eq fun _ => rfl

variable [BEq K] [BEq L] [BEq V] [Rendered K] [Rendered L] [Rendered V]

/-- A call with other payloads leads to the state with other payloads, and is answered the same. -/
theorem perform_map (c : Call K V) :
    ((u.map f).perform (c.map f)).map Outcome.blank =
      (u.perform c).map fun o => (o.map f).blank := by
  cases c with
  | command c =>
    simp only [Call.map, perform, map, Instance.Workspace.perform_map]
    exact map_bind_map_eq fun _ => rfl
  | query q =>
    exact map_bind_eq_of_map_eq (u.workspace.answer_map f q)
      (fun reply => .ok ⟨u.map f, .workspace reply []⟩) (fun _ => rfl) fun _ => rfl
  | newLedger l =>
    exact congrArg (fun state => Except.ok (Outcome.mk state .done)) (u.setLedger_map f l {})
  | ledgerCommand l c =>
    simp only [Call.map, perform, named_map]
    refine map_bind_map_eq fun x => map_bind_eq_of_map_eq (x.perform_map f c)
      (fun o => .ok ⟨(u.map f).setLedger l o.session.session, .ledger o.reply o.notices⟩)
      (fun _ => rfl) fun o => ?_
    exact congrArg (fun state => Except.ok (Outcome.mk state _))
      (u.setLedger_map f l o.session.session).symm
  | ledgerQuery l q =>
    simp only [Call.map, perform, named_map]
    exact map_bind_map_eq fun x => map_bind_eq_of_map_eq (x.answer_map f q)
      (fun reply => .ok ⟨u.map f, .ledger reply []⟩) (fun _ => rfl) fun _ => rfl

theorem after_map (c : Call K V) : (u.map f).after (c.map f) = (u.after c).map f := by
  unfold after
  rcases cases_of_map_eq (u.perform_map f c) with ⟨e, h', h⟩ | ⟨o', o, h', h, hsame⟩
  · rw [h', h]
  · rw [h', h]
    exact congrArg Outcome.state hsame

theorem run_map (cs : List (Call K V)) :
    (u.map f).run (cs.map (Call.map f)) = (u.run cs).map f := by
  induction cs generalizing u with
  | nil => rfl
  | cons c cs ih =>
    show ((u.map f).after (c.map f)).run (cs.map (Call.map f)) = _
    rw [after_map]
    exact ih (u.after c)

theorem answer_map (c : Call K V) :
    (((u.map f).perform (c.map f)).map Outcome.answer).map Answer.blank =
      ((u.perform c).map Outcome.answer).map fun a => (a.map f).blank := by
  rcases cases_of_map_eq (u.perform_map f c) with ⟨e, h', h⟩ | ⟨o', o, h', h, hsame⟩
  · rw [h', h]
    rfl
  · rw [h', h]
    exact congrArg (fun o => Except.ok (Outcome.answer o)) hsame

theorem transcript_map (cs : List (Call K V)) :
    ((u.map f).transcript (cs.map (Call.map f))).map (Except.map Answer.blank) =
      (u.transcript cs).map (Except.map fun a => (a.map f).blank) := by
  induction cs generalizing u with
  | nil => rfl
  | cons c cs ih =>
    simp only [List.map_cons, transcript, after_map, answer_map, ih]

/-! ### Identities -/

omit [BEq L] [Rendered L]

/-- Tables keep the entries of registries, and ledgers list no statement twice. -/
structure Sound (u : UnitOfWork K V) : Prop where
  tables : u.workspace.TablesSound
  ledgers : ∀ name x, u.ledgers.get? name = some x → OrderedMap.Keyed x.ledger.toList

omit [BEq K] [BEq V] [Rendered K] [Rendered V] in
theorem sound_empty : ({} : UnitOfWork K V).Sound where
  tables := Instance.Workspace.tablesSound_empty
  ledgers name x h := by simp at h

namespace Sound

variable {u : UnitOfWork K V}

omit [BEq K] [BEq V] [Rendered K] [Rendered V] in
theorem setLedger (h : u.Sound) {x : Ledger.Session (Instance K)}
    (hx : OrderedMap.Keyed x.ledger.toList) (name : String) : (u.setLedger name x).Sound where
  tables := h.tables
  ledgers other y hy := by
    rw [UnitOfWork.setLedger, OrderedMap.get?_insert] at hy
    split at hy
    · cases hy
      exact hx
    · exact h.ledgers other y hy

omit [BEq K] [BEq V] [Rendered V] in
theorem ledgerCommand (h : u.Sound) {name : String} {x : Ledger.NamedSession K}
    (hx : u.named name = .ok x) {c : Ledger.Command String} {o : Ledger.NamedSession.NamedOutcome K}
    (ho : x.perform c = .ok o) : (u.setLedger name o.session.session).Sound := by
  obtain ⟨session, hsession, hx⟩ := exists_of_bind_eq_ok hx
  cases hx
  obtain ⟨command, -, ho⟩ := exists_of_bind_eq_ok ho
  cases ho
  have hkeyed := h.ledgers name session (OrderedMap.get?_of_named hsession)
  exact h.setLedger (Ledger.Session.keyed_perform hkeyed command) name

theorem after (h : u.Sound) (c : Call K V) : (u.after c).Sound := by
  unfold UnitOfWork.after
  cases ho : u.perform c with
  | error e => exact h
  | ok o =>
    cases c with
    | command c =>
      obtain ⟨_, hw, ho⟩ := exists_of_bind_eq_ok ho
      cases ho
      exact ⟨h.tables.of_ok hw, h.ledgers⟩
    | query q =>
      obtain ⟨_, -, ho⟩ := exists_of_bind_eq_ok ho
      cases ho
      exact h
    | newLedger l =>
      cases ho
      have hnew : OrderedMap.Keyed ({} : Ledger.Session (Instance K)).ledger.toList := .nil
      exact h.setLedger hnew l
    | ledgerCommand l c =>
      obtain ⟨x, hx, ho⟩ := exists_of_bind_eq_ok ho
      obtain ⟨_, hperform, ho⟩ := exists_of_bind_eq_ok ho
      cases ho
      exact h.ledgerCommand hx hperform
    | ledgerQuery l q =>
      obtain ⟨_, -, ho⟩ := exists_of_bind_eq_ok ho
      obtain ⟨_, -, ho⟩ := exists_of_bind_eq_ok ho
      cases ho
      exact h

theorem run (h : u.Sound) (cs : List (Call K V)) : (u.run cs).Sound := by
  induction cs generalizing u with
  | nil => exact h
  | cons c cs ih => exact ih (h.after c)

end Sound

/-- Whatever holds instances holds each at most once, and has just those whose identity is held. -/
structure ByIdentity (u : UnitOfWork K V) : Prop where
  registries : ∀ name r, u.workspace.registries.get? name = some r →
    HeldByIdentity r.keys r.contains
  tables : ∀ name t, u.workspace.tables.get? name = some t →
    HeldByIdentity (t.toList.map Prod.fst) t.contains
  statements : ∀ name x, u.ledgers.get? name = some x →
    HeldByIdentity (x.ledger.toList.map Prod.fst) x.ledger.contains
  cursors : ∀ name x, u.ledgers.get? name = some x → ∀ s set, x.ledger.cursors? s = some set →
    HeldByIdentity set.members set.contains

omit [BEq K] [BEq V] [Rendered K] [Rendered V] in
theorem Sound.byIdentity {u : UnitOfWork K V} (h : u.Sound) : u.ByIdentity where
  registries _ r _ := r.heldByIdentity
  tables name t ht := (h.tables name t ht).heldByIdentity
  statements name x hx := Ledger.heldByIdentity (h.ledgers name x hx)
  cursors _ _ _ _ set _ := set.heldByIdentity

/-! ### Two runs -/

instance : Rendered Unit := ⟨fun _ => "", fun _ => ""⟩

/-- A state without payloads. -/
def bare (u : UnitOfWork K V) : UnitOfWork Unit V := u.map fun _ => ()

/-- A call without payloads. -/
def Call.bare (c : Call K V) : Call Unit V := c.map fun _ => ()

/-- An answer without payloads, printed forms, and what compares payloads. -/
def Answer.bare (a : Answer K V) : Answer Unit V := (a.map fun _ => ()).blank

theorem bare_run (cs : List (Call K V)) :
    (({} : UnitOfWork K V).run cs).bare = ({} : UnitOfWork Unit V).run (cs.map Call.bare) :=
  (run_map (fun _ => ()) {} cs).symm

theorem bare_transcript (cs : List (Call K V)) :
    (({} : UnitOfWork K V).transcript cs).map (Except.map Answer.bare) =
      (({} : UnitOfWork Unit V).transcript (cs.map Call.bare)).map (Except.map Answer.blank) :=
  (transcript_map (fun _ => ()) {} cs).symm

/-- Two runs of the same calls, with the same picks of the statements that become first, about
instances that are made and named the same but hold any payloads, get the same answers and lead to
the same state, but for payloads, printed forms and what compares payloads. So instances of equal
payloads are kept apart, and no instance is held twice. -/
theorem indifferent_to_payloads [BEq L] [Rendered L] {cs : List (Call K V)} {ds : List (Call L V)}
    (hsame : cs.map Call.bare = ds.map Call.bare) :
    let u := ({} : UnitOfWork K V).run cs
    let v := ({} : UnitOfWork L V).run ds
    (({} : UnitOfWork K V).transcript cs).map (Except.map Answer.bare) =
      (({} : UnitOfWork L V).transcript ds).map (Except.map Answer.bare) ∧
    u.bare = v.bare ∧ u.ByIdentity ∧ v.ByIdentity := by
  refine ⟨?_, ?_, (sound_empty.run cs).byIdentity, (sound_empty.run ds).byIdentity⟩
  · rw [bare_transcript, bare_transcript, hsame]
  · rw [bare_run, bare_run, hsame]

/-- Be their payloads equal or not, `a` and `b` are two instances, and `c` is `a` once more. -/
theorem indifferent_to_payloads_equal_or_not :
    let calls (x y : Value) : List (Call Value Value) := [
      .command (.newInstance "a" x), .command (.newInstance "b" y), .command (.addName "c" "a"),
      .command (.newRegistry "r"), .command (.registry "r" (.insert (.named "a") (.integer 1))),
      .command (.registry "r" (.insert (.named "b") (.integer 2))),
      .command (.registry "r" (.insert (.named "c") (.integer 3))), .newLedger "l",
      .ledgerCommand "l" (.register "a"), .ledgerCommand "l" (.openCursor "b" "c"),
      .ledgerCommand "l" (.register "c"), .ledgerCommand "l" (.remove "c" 0)]
    let equal := calls (.text "x") (.text "x")
    let different := calls (.text "x") (.integer 5)
    let u := ({} : UnitOfWork Value Value).run equal
    equal.map Call.bare = different.map Call.bare ∧
    (({} : UnitOfWork Value Value).transcript equal).map (Except.map Answer.bare) =
      (({} : UnitOfWork Value Value).transcript different).map (Except.map Answer.bare) ∧
    u.bare = (({} : UnitOfWork Value Value).run different).bare ∧
    (u.workspace.registries.get? "r").map Registry.values = some [.integer 3, .integer 2] ∧
    (u.ledgers.get? "l").map (·.ledger.size) = some 1 := by
  intro calls equal different u
  have hsame : equal.map Call.bare = different.map Call.bare := rfl
  obtain ⟨htranscript, hstate, -, -⟩ := indifferent_to_payloads hsame
  exact ⟨hsame, htranscript, hstate, rfl, rfl⟩

end UnitOfWork

end WorkTracking
