import WorkTracking.Ledger.NamedSession
import WorkTracking.Proofs.Instance.Indifference
import WorkTracking.Proofs.Ledger.Listing

/-!
Ledgers with other statements and cursors, equal just where the given ones are. Each operation is
carried over, also the promotion of the entry that is picked. So sessions of instances do what they
did when the instances have other payloads; only printed forms can come out differently.
-/
namespace WorkTracking

variable {S S' C C' : Type} [BEq S] [BEq S'] [BEq C] [BEq C']

def Leading.map (g : Rekeying S S') (h : Rekeying C C') (first : Leading S C) : Leading S' C' where
  statement := g first.statement
  cursors := first.cursors.map (CursorSet.map h)

def Overflow.map (g : Rekeying S S') (h : Rekeying C C') (overflow : Overflow S C) :
    Overflow S' C' :=
  OrderedMap.map g (Option.map (CursorSet.map h)) overflow

def Live.map (g : Rekeying S S') (h : Rekeying C C') (live : Live S C) : Live S' C' where
  first := live.first.map g h
  overflow := live.overflow.map (Overflow.map g h)

namespace Ledger

def map (g : Rekeying S S') (h : Rekeying C C') (l : Ledger S C) : Ledger S' C' :=
  ⟨l.live.map (Live.map g h)⟩

def mapPlace (g : Rekeying S S') (h : Rekeying C C') (e : S × Option (CursorSet C)) :
    S' × Option (CursorSet C') :=
  (g e.1, e.2.map (CursorSet.map h))

def Opened.map (g : Rekeying S S') (h : Rekeying C C') (o : Opened S C) : Opened S' C' where
  ledger := o.ledger.map g h
  before := o.before.map h
  after := o.after.map h
  healed := o.healed

def Removed.map (g : Rekeying S S') (h : Rekeying C C') (r : Removed S C) : Removed S' C' where
  ledger := r.ledger.map g h
  cursors := r.cursors.map h

variable (g : Rekeying S S') (h : Rekeying C C') (l : Ledger S C)

omit [BEq S] [BEq S'] in
/-- A missing set goes for an empty one. -/
theorem getD_map (set : Option (CursorSet C)) :
    (set.map (CursorSet.map h)).getD .empty = (set.getD .empty).map h := by
  cases set <;> rfl

theorem contains_map (s : S) : (l.map g h).contains (g s) = l.contains s := by
  obtain ⟨_ | ⟨first, _ | overflow⟩⟩ := l <;>
    simp [contains, map, Live.map, Leading.map, Overflow.map]

theorem toList_map : (l.map g h).toList = l.toList.map (mapPlace g h) := by
  obtain ⟨_ | ⟨first, _ | overflow⟩⟩ := l <;> rfl

theorem size_map : (l.map g h).size = l.size := by
  obtain ⟨_ | ⟨first, _ | overflow⟩⟩ := l
  · rfl
  · rfl
  · exact congrArg (1 + ·) (overflow.size_map g _)

theorem hasStatements_map : (l.map g h).hasStatements = l.hasStatements := by
  obtain ⟨_ | live⟩ := l <;> rfl

theorem first?_map : (l.map g h).first? = l.first?.map g := by
  obtain ⟨_ | live⟩ := l <;> rfl

theorem visits_map :
    (l.map g h).visits = l.visits.map fun v => (g v.1, v.2.map h) := by
  simp only [visits, toList_map, List.map_map]
  refine List.map_congr_left fun e _ => ?_
  exact congrArg (g e.1, ·) (getD_map h e.2)

theorem cursors?_map (s : S) :
    (l.map g h).cursors? (g s) = (l.cursors? s).map (CursorSet.map h) := by
  have hkey : (fun e : S × Option (CursorSet C) => (mapPlace g h e).1 == g s) = (·.1 == s) := by
    funext e
    exact g.beq_toFun e.1 s
  rw [cursors?_eq_bind, cursors?_eq_bind, toList_map, List.find?_map, Function.comp_def, hkey]
  cases l.toList.find? (·.1 == s) <;> rfl

/-- What `place` does where there are live statements. -/
def placeAmong (live : Live S C) (s : S)
    (change : Option (CursorSet C) → Option (CursorSet C)) : Live S C :=
  if live.first.statement == s then
    { live with first := { live.first with cursors := change live.first.cursors } }
  else
    let overflow := live.overflow.getD .empty
    { live with overflow := some (overflow.insert s (change ((overflow.get? s).getD none))) }

theorem place_eq (l : Ledger S C) (s : S) (change : Option (CursorSet C) → Option (CursorSet C)) :
    l.place s change = ⟨some (placeAmong (l.live.getD ⟨⟨s, none⟩, none⟩) s change)⟩ := by
  simp only [place, placeAmong]
  split <;> rfl

section Place

variable {change : Option (CursorSet C) → Option (CursorSet C)}
  {change' : Option (CursorSet C') → Option (CursorSet C')}

theorem placeAmong_map
    (hchange : ∀ set, change' (set.map (CursorSet.map h)) = (change set).map (CursorSet.map h))
    (live : Live S C) (s : S) :
    placeAmong (live.map g h) (g s) change' = (placeAmong live s change).map g h := by
  obtain ⟨⟨first, cursors⟩, overflow⟩ := live
  have hoverflow : (overflow.map (Overflow.map g h)).getD .empty =
      OrderedMap.map g (Option.map (CursorSet.map h)) (overflow.getD .empty) := by
    cases overflow <;> rfl
  have hget : (((overflow.getD .empty).get? s).map (Option.map (CursorSet.map h))).getD none =
      (((overflow.getD .empty).get? s).getD none).map (CursorSet.map h) := by
    cases (overflow.getD .empty).get? s <;> rfl
  simp only [placeAmong, Live.map, Leading.map, g.beq_toFun, hoverflow, OrderedMap.get?_map, hget,
    hchange, OrderedMap.insert_map]
  split <;> rfl

theorem place_map
    (hchange : ∀ set, change' (set.map (CursorSet.map h)) = (change set).map (CursorSet.map h))
    (s : S) : (l.map g h).place (g s) change' = (l.place s change).map g h := by
  have hlive : (l.map g h).live.getD ⟨⟨g s, none⟩, none⟩ =
      (l.live.getD ⟨⟨s, none⟩, none⟩).map g h := by
    obtain ⟨_ | live⟩ := l <;> rfl
  rw [place_eq, place_eq, hlive, placeAmong_map g h hchange]
  rfl

end Place

theorem register_map (s : S) : (l.map g h).register (g s) = (l.register s).map (map g h) := by
  unfold register
  rw [contains_map]
  split
  · rfl
  · exact congrArg some (l.place_map g h (fun _ => rfl) s)

/-- A cursor set opened, with a change that is carried over as well. -/
theorem openCursors_map {change : CursorSet C → CursorSet C} {change' : CursorSet C' → CursorSet C'}
    (hchange : ∀ set, change' (set.map h) = (change set).map h) (s : S) :
    (l.map g h).openCursors (g s) change' = (l.openCursors s change).map g h := by
  have hplace : (l.map g h).place (g s) (fun set => some (change' (set.getD .empty))) =
      (l.place s fun set => some (change (set.getD .empty))).map g h := by
    apply place_map
    intro set
    rw [getD_map, hchange]
    rfl
  simp only [openCursors, cursors?_map, contains_map, getD_map, hchange, hplace]
  rfl

/-- The entries that are picked are in the same places. -/
theorem promote_map (choice : Nat) (overflow : Overflow S C) :
    promote choice (overflow.map g h) =
      (promote choice overflow).map (Prod.map (Leading.map g h) (Overflow.map g h)) := by
  simp only [promote, Overflow.map, OrderedMap.size_map, OrderedMap.entries_map, List.getElem?_map]
  cases overflow.entries[choice % overflow.size]? with
  | none => rfl
  | some e =>
    have herase := overflow.erase_map g (Option.map (CursorSet.map h)) e.1
    exact congrArg (fun o => some (_, o)) herase

theorem unlessEmpty_map (overflow : Overflow S C) :
    unlessEmpty (overflow.map g h) = (unlessEmpty overflow).map (Overflow.map g h) := by
  simp only [unlessEmpty, Overflow.map, OrderedMap.isEmpty_map]
  split <;> rfl

theorem remove_map (s : S) (choice : Nat) :
    (l.map g h).remove (g s) choice = (l.remove s choice).map (Removed.map g h) := by
  obtain ⟨_ | ⟨⟨first, cursors⟩, overflow⟩⟩ := l
  · rfl
  · simp only [remove, map, Live.map, Leading.map, Option.map_some, Option.bind_eq_bind,
      Option.bind_some, g.beq_toFun]
    cases first == s with
    | true =>
      have hpromote : (overflow.map (Overflow.map g h)).bind (promote choice) =
          (overflow.bind (promote choice)).map
            (Prod.map (Leading.map g h) (Overflow.map g h)) := by
        cases overflow with
        | none => rfl
        | some o => exact promote_map g h choice o
      simp only [↓reduceIte, hpromote, getD_map]
      cases overflow.bind (promote choice) with
      | none => rfl
      | some p =>
        simp only [Option.map_some, Prod.map, unlessEmpty_map]
        rfl
    | false =>
      cases overflow with
      | none => rfl
      | some o =>
        have hget : OrderedMap.get? (o.map g h) (g s) =
            (o.get? s).map (Option.map (CursorSet.map h)) :=
          o.get?_map g _ s
        have herase : OrderedMap.erase (o.map g h) (g s) = Overflow.map g h (o.erase s) :=
          o.erase_map g _ s
        simp only [Bool.false_eq_true, ↓reduceIte, Option.map_some, Option.bind_some, hget, herase,
          unlessEmpty_map]
        rcases o.get? s with _ | _ | set <;> rfl

theorem clear_map : (l.map g h).clear = l.clear.map g h := rfl

end Ledger

/-! ### Sessions -/

theorem Value.sorted_map {A B : Type} {g : A → B} {key : A → Value} {key' : B → Value}
    (hkey : ∀ a, key' (g a) = key a) (l : List A) :
    sorted key' (l.map g) = (sorted key l).map g := by
  refine (List.map_mergeSort fun a _ b _ => ?_).symm
  rw [hkey, hkey]

/-- The notice without the printed forms in it. -/
def Log.Notice.blank (n : Log.Notice) : Log.Notice where
  level := n.level
  message := n.message
  fields := n.fields.map fun e =>
    (e.1, match e.2 with
      | .number k => .number k
      | .text _ => .text "")

namespace Ledger

open Instance (rekeying)

def Command.map {A B : Type} (g : A → B) : Command A → Command B
  | register s => register (g s)
  | touch s => touch (g s)
  | openCursor s c => openCursor (g s) (g c)
  | closeCursor s c => closeCursor (g s) (g c)
  | openAll s cs => openAll (g s) (cs.map g)
  | remove s choice => remove (g s) choice
  | clear => clear

def Query.map {A B : Type} (g : A → B) : Query A → Query B
  | cursors s => cursors (g s)
  | contains s => contains (g s)
  | visit => visit
  | size => size
  | quoted => quoted

namespace Reply

def map {A B : Type} (g : A → B) : Reply A → Reply B
  | done => done
  | flag b => flag b
  | number n => number n
  | cursors cs => cursors (cs.map (List.map g))
  | visit first all => visit (first.map g) (all.map fun e => (g e.1, e.2.map g))
  | extent size isEmpty hasStatements => extent size isEmpty hasStatements
  | text s => text s
  | refused fault => refused fault

/-- The reply without the printed forms in it. -/
def blank {A : Type} : Reply A → Reply A
  | text s => text (s.map fun _ => "")
  | refused (.alreadyRegistered _) => refused (.alreadyRegistered "")
  | reply => reply

end Reply

variable {K L : Type}

def Session.map (f : K → L) (x : Session (Instance K)) : Session (Instance L) where
  ledger := x.ledger.map (rekeying f) (rekeying f)
  unsettled := x.unsettled

namespace Outcome

def map (f : K → L) (o : Outcome (Instance K)) : Outcome (Instance L) where
  session := o.session.map f
  reply := o.reply.map (Instance.map f)
  notices := o.notices

def blank (o : Outcome (Instance K)) : Outcome (Instance K) where
  session := o.session
  reply := o.reply.blank
  notices := o.notices.map Log.Notice.blank

end Outcome

namespace Session

variable [Rendered K] [Rendered L] (f : K → L) (x : Session (Instance K))

omit [Rendered K] [Rendered L] in
/-- Cursors are put in order by their labels, which stay. -/
theorem sortedCursors_map (s : CursorSet (Instance K)) :
    sortedCursors (s.map (rekeying f)) = (sortedCursors s).map (Instance.map f) :=
  Value.sorted_map (fun _ => rfl) s.members

theorem change_map {change : CursorSet (Instance K) → CursorSet (Instance K)}
    {change' : CursorSet (Instance L) → CursorSet (Instance L)}
    {reply : CursorSet (Instance K) → CursorSet (Instance K) → Reply (Instance K)}
    {reply' : CursorSet (Instance L) → CursorSet (Instance L) → Reply (Instance L)}
    (hchange : ∀ set, change' (set.map (rekeying f)) = (change set).map (rekeying f))
    (hreply : ∀ before after, reply' (before.map (rekeying f)) (after.map (rekeying f)) =
      (reply before after).map (Instance.map f)) (s : Instance K) :
    ((x.map f).change (s.map f) change' reply').blank =
      ((x.change s change reply).map f).blank := by
  have hopened : (x.map f).ledger.openCursors (s.map f) change' =
      (x.ledger.openCursors s change).map (rekeying f) (rekeying f) :=
    x.ledger.openCursors_map (rekeying f) (rekeying f) hchange s
  simp only [Session.change, hopened, Opened.map, hreply]
  cases (x.ledger.openCursors s change).healed <;> rfl

omit [Rendered K] [Rendered L] in
theorem remove_map (s : Instance K) (choice : Nat) :
    (x.map f).remove (s.map f) choice = (x.remove s choice).map f := by
  have hremoved : (x.map f).ledger.remove (s.map f) choice =
      (x.ledger.remove s choice).map (Removed.map (rekeying f) (rekeying f)) :=
    x.ledger.remove_map (rekeying f) (rekeying f) s choice
  have hfirst : (x.map f).ledger.first?.any (· == s.map f) = x.ledger.first?.any (· == s) := by
    simp only [Session.map, first?_map, Option.any_map]
    rfl
  simp only [Session.remove, hremoved, hfirst]
  cases x.ledger.remove s choice with
  | none => rfl
  | some removed =>
    simp only [Option.map_some, Removed.map, size_map, sortedCursors_map]
    rfl

/-- A command about the same instances with other payloads. -/
theorem perform_map (c : Command (Instance K)) :
    ((x.map f).perform (c.map (Instance.map f))).blank = ((x.perform c).map f).blank := by
  have hcontains (set : CursorSet (Instance K)) (c : Instance K) :
      (set.map (rekeying f)).contains (c.map f) = set.contains c :=
    set.contains_map (rekeying f) c
  cases c with
  | register s =>
    have hregistered : (x.map f).ledger.register (s.map f) =
        (x.ledger.register s).map (Ledger.map (rekeying f) (rekeying f)) :=
      x.ledger.register_map (rekeying f) (rekeying f) s
    simp only [Command.map, perform, hregistered]
    cases x.ledger.register s <;> rfl
  | touch s =>
    exact x.change_map f (fun _ => rfl) (fun _ after => congrArg Reply.number (after.size_map _)) s
  | openCursor s c =>
    refine x.change_map f (fun set => set.insert_map (rekeying f) c) (fun before _ => ?_) s
    exact congrArg (fun b => Reply.flag (!b)) (hcontains before c)
  | closeCursor s c =>
    refine x.change_map f (fun set => set.erase_map (rekeying f) c) (fun before _ => ?_) s
    exact congrArg Reply.flag (hcontains before c)
  | openAll s cs =>
    refine x.change_map f (fun set => set.insertAll_map (rekeying f) cs) (fun _ after => ?_) s
    exact congrArg Reply.number (after.size_map _)
  | remove s choice => exact congrArg Outcome.blank (x.remove_map f s choice)
  | clear => rfl

omit [Rendered K] [Rendered L] in
theorem visited_map :
    (x.map f).visited = x.visited.map fun e => (e.1.map f, e.2.map (Instance.map f)) := by
  have hvisits : ((x.map f).ledger.visits.map fun (s, set) => (s, sortedCursors set)) =
      (x.ledger.visits.map fun (s, set) => (s, sortedCursors set)).map
        fun e => (e.1.map f, e.2.map (Instance.map f)) := by
    simp only [Session.map, visits_map, List.map_map]
    refine List.map_congr_left fun v _ => ?_
    exact congrArg (v.1.map f, ·) (sortedCursors_map f v.2)
  rw [visited, hvisits]
  exact Value.sorted_map (fun _ => rfl) _

/-- Whether a quoted form is given is the same, and so is all else that is asked for. -/
theorem answer_map (q : Query (Instance K)) :
    ((x.map f).answer (q.map (Instance.map f))).blank =
      ((x.answer q).map (Instance.map f)).blank := by
  cases q with
  | cursors s =>
    have hcursors : (x.map f).ledger.cursors? (s.map f) =
        (x.ledger.cursors? s).map (CursorSet.map (rekeying f)) :=
      x.ledger.cursors?_map (rekeying f) (rekeying f) s
    simp only [Query.map, answer, hcursors]
    cases x.ledger.cursors? s with
    | none => rfl
    | some set => exact congrArg (fun cs => Reply.cursors (some cs)) (sortedCursors_map f set)
  | contains s =>
    exact congrArg Reply.flag (x.ledger.contains_map (rekeying f) (rekeying f) s)
  | visit =>
    have hfirst : (x.map f).firstSettled = x.firstSettled.map (Instance.map f) := by
      simp only [firstSettled, Session.map, first?_map]
      split <;> rfl
    simp only [Query.map, answer, hfirst, visited_map]
    rfl
  | size =>
    simp only [Query.map, answer, Session.map, size_map, isEmpty, hasStatements_map]
    rfl
  | quoted =>
    have hsettled : (x.map f).isSettled = x.isSettled := by
      simp only [isSettled, Session.map, size_map, toList_map, List.all_map]
      congr 2
      funext e
      rcases e with ⟨s, _ | set⟩
      · rfl
      · simp [mapPlace]
    simp only [Query.map, answer, quoted?, hsettled]
    cases x.isSettled <;> rfl

end Session

/-! ### Sessions of named instances -/

section Found

variable {A B D : Type} {find : A → Except Misuse B} {find' : A → Except Misuse D} {g : B → D}

theorem mapM_found (hfind : ∀ a, find' a = (find a).map g) (l : List A) :
    l.mapM find' = (l.mapM find).map (List.map g) := by
  induction l with
  | nil => rfl
  | cons a l ih =>
    rw [List.mapM_cons, List.mapM_cons, hfind, ih]
    exact bind_map_eq fun _ => bind_map_eq fun _ => rfl

theorem Command.mapM_found (hfind : ∀ a, find' a = (find a).map g) (c : Command A) :
    c.mapM find' = (c.mapM find).map (map g) := by
  cases c with
  | register s | touch s | remove s choice =>
    simp only [Command.mapM, hfind]
    cases find s <;> rfl
  | openCursor s c | closeCursor s c =>
    simp only [Command.mapM, hfind]
    exact bind_map_eq fun _ => bind_map_eq fun _ => rfl
  | openAll s cs =>
    simp only [Command.mapM, hfind, Ledger.mapM_found hfind]
    exact bind_map_eq fun _ => bind_map_eq fun _ => rfl
  | clear => rfl

theorem Query.mapM_found (hfind : ∀ a, find' a = (find a).map g) (q : Query A) :
    q.mapM find' = (q.mapM find).map (map g) := by
  cases q with
  | cursors s | contains s =>
    simp only [Query.mapM, hfind]
    cases find s <;> rfl
  | visit | size | quoted => rfl

end Found

namespace NamedSession

def map (f : K → L) (x : NamedSession K) : NamedSession L := ⟨x.naming.map f, x.session.map f⟩

namespace NamedOutcome

def map (f : K → L) (o : NamedOutcome K) : NamedOutcome L where
  session := o.session.map f
  reply := o.reply.map (Instance.map f)
  notices := o.notices

def blank (o : NamedOutcome K) : NamedOutcome K where
  session := o.session
  reply := o.reply.blank
  notices := o.notices.map Log.Notice.blank

end NamedOutcome

variable [Rendered K] [Rendered L] (f : K → L) (x : NamedSession K)

theorem perform_map (c : Command String) :
    ((x.map f).perform c).map NamedOutcome.blank =
      (x.perform c).map fun o => (o.map f).blank := by
  have hfound := Command.mapM_found (x.naming.instanceNamed_map f) c
  simp only [perform, map, hfound]
  refine map_bind_map_eq fun command => ?_
  exact congrArg (fun o : Outcome (Instance L) =>
    Except.ok (NamedOutcome.mk ⟨x.naming.map f, o.session⟩ o.reply o.notices))
    (x.session.perform_map f command)

theorem answer_map (q : Query String) :
    ((x.map f).answer q).map Reply.blank =
      (x.answer q).map fun reply => (reply.map (Instance.map f)).blank := by
  have hfound := Query.mapM_found (x.naming.instanceNamed_map f) q
  simp only [answer, map, hfound]
  exact map_bind_map_eq fun query => congrArg Except.ok (x.session.answer_map f query)

end NamedSession

end Ledger

end WorkTracking
