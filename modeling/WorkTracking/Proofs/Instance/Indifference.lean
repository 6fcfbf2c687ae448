import WorkTracking.Instance.Workspace
import WorkTracking.Proofs.Instance.Payloads

/-!
Workspaces are indifferent to payloads. The same commands and queries with other payloads lead to
the same workspaces and replies with other payloads. Only printed forms, and what compares the
payloads themselves, can come out differently.
-/
namespace WorkTracking

variable {K L V : Type}

open Instance (mapEntry)

/-! ### Replies -/

namespace Instance

def Comparison.map (f : K → L) (c : Comparison K) : Comparison L where
  first := c.first.map f
  second := c.second.map f
  same := c.same
  sameAddress := c.sameAddress
  sameHash := c.sameHash
  sameValue := c.sameValue
  sameCopy := c.sameCopy
  plain := c.plain
  quoted := c.quoted

namespace Reply

/-- The reply with other payloads in it. -/
def map (f : K → L) : Reply K V → Reply L V
  | done => done
  | flag b => flag b
  | number n => number n
  | value v => value v
  | verdict b => verdict b
  | keys ks => keys (ks.map (Instance.map f))
  | values vs => values vs
  | countedValues vs => countedValues vs
  | entries es => entries (es.map (mapEntry f))
  | snapshot s => snapshot (s.map f)
  | entrySet es distinct => entrySet (es.map fun e => (e.1.map f, e.2)) distinct
  | text s => text s
  | comparison c => comparison (c.map f)
  | settings s => settings s
  | refused fault => refused fault
  | rejected r => rejected (r.map f)

/-- The reply without what depends on payloads: printed forms, whether two payloads or two entries
on their own are equal, and how many of these differ. -/
def blank : Reply K V → Reply K V
  | text _ => text ""
  | verdict b => verdict (b.map fun _ => false)
  | entrySet es _ => entrySet (es.map fun e => (e.1, "")) 0
  | comparison c => comparison { c with sameValue := false, plain := "", quoted := "" }
  | reply => reply

end Reply

end Instance

open Instance (Reply)

/-! ### Calls to one container -/

namespace Registry

def Command.map {H J : Type} (g : H → J) : Command H V → Command J V
  | .insert h v => .insert (g h) v
  | .insertAll l => .insertAll (l.map fun e => (g e.1, e.2))
  | .write h v => .write (g h) v
  | .touch h => .touch (g h)
  | .erase h => .erase (g h)
  | .clear => .clear
  | .snapshot => .snapshot

def Query.map {H J : Type} (g : H → J) : Query H V → Query J V
  | .get h => .get (g h)
  | .contains h => .contains (g h)
  | .containsValue v => .containsValue v
  | .size => .size
  | .isEmpty => .isEmpty
  | .keys => .keys
  | .values => .values
  | .entries => .entries
  | .quoted => .quoted
  | .entrySet => .entrySet
  | .keySet => .keySet

def Outcome.map (f : K → L) (o : Outcome K V) : Outcome L V := ⟨o.registry.map f, o.reply.map f⟩

theorem perform_map (f : K → L) (r : Registry K V) (c : Command (Instance K) V) :
    (r.map f).perform (c.map (Instance.map f)) = (r.perform c).map f := by
  cases c with
  | insert k v =>
    simp only [Command.map, perform, insert_map]
    rfl
  | insertAll l =>
    have hgrown : (r.map f).insertAll (l.map fun e => (e.1.map f, e.2)) = (r.insertAll l).map f :=
      r.insertAll_map f l
    simp only [Command.map, perform, hgrown, size_map]
    rfl
  | write k v | touch k =>
    simp only [Command.map, perform, modify_map]
    rfl
  | erase k =>
    simp only [Command.map, perform, erase_map]
    rfl
  | clear => rfl
  | snapshot =>
    simp only [Command.map, perform, snapshot_map]
    rfl

variable [BEq K] [BEq L] [BEq V] [Rendered K] [Rendered L] [Rendered V]

theorem answer_map (f : K → L) (r : Registry K V) (q : Query (Instance K) V) :
    ((r.map f).answer (q.map (Instance.map f))).blank = ((r.answer q).map f).blank := by
  cases q with
  | get k => exact congrArg Reply.value (r.get?_map f k)
  | contains k => exact congrArg Reply.flag (r.contains_map f k)
  | containsValue v =>
    simp only [Query.map, answer, containsValue, values_map]
    rfl
  | size => exact congrArg Reply.number (r.size_map f)
  | isEmpty => exact congrArg Reply.flag (r.isEmpty_map f)
  | keys => exact congrArg Reply.keys (r.keys_map f)
  | values => exact congrArg Reply.countedValues (r.values_map f)
  | entries => exact congrArg Reply.entries (r.toList_map f)
  | entrySet =>
    simp only [Query.map, answer, Reply.map, Reply.blank, entrySet_map, List.map_map]
    rfl
  | quoted | keySet => rfl

end Registry

namespace SlotTable

def Command.map {H J : Type} (g : H → J) : Command H V → Command J V
  | .insert h v => .insert (g h) v
  | .erase h => .erase (g h)
  | .clear => .clear

def Query.map {H J : Type} (g : H → J) : Query H V → Query J V
  | .get h => .get (g h)
  | .contains h => .contains (g h)
  | .containsValue v => .containsValue v
  | .size => .size
  | .capacity => .capacity
  | .isEmpty => .isEmpty
  | .entries => .entries
  | .values => .values
  | .quoted => .quoted

def Outcome.map (f : K → L) (o : Outcome K V) : Outcome L V where
  table := o.table.map f
  reply := o.reply.map f
  notices := o.notices

/-- What is turned away, and what is noted about it, is the same. -/
theorem perform_map (f : K → L) (t : SlotTable K V) (c : Command (Instance K) V) :
    (t.map f).perform (c.map (Instance.map f)) = (t.perform c).map f := by
  cases c with
  | insert k v =>
    simp only [Command.map, perform, insert_map]
    cases t.insert k v <;> rfl
  | erase k =>
    simp only [Command.map, perform, erase_map]
    rfl
  | clear =>
    simp only [Command.map, perform, clear_map]
    rfl

variable [BEq V] [Rendered K] [Rendered L] [Rendered V]

theorem answer_map (f : K → L) (t : SlotTable K V) (q : Query (Instance K) V) :
    ((t.map f).answer (q.map (Instance.map f))).blank = ((t.answer q).map f).blank := by
  cases q with
  | get k => exact congrArg Reply.value (t.get?_map f k)
  | contains k => exact congrArg Reply.flag (t.contains_map f k)
  | containsValue v =>
    simp only [Query.map, answer, containsValue, values_map]
    rfl
  | capacity => exact congrArg Reply.number (t.capacity_map f)
  | entries => exact congrArg Reply.entries (t.toList_map f)
  | values => exact congrArg Reply.values (t.values_map f)
  | size | isEmpty | quoted => rfl

end SlotTable

/-! ### Requests for instances -/

def Key.map (f : K → L) : Key K → Key L
  | .named name => .named name
  | .fresh payload => .fresh (f payload)

namespace Naming

def map (f : K → L) (n : Naming K) : Naming L := ⟨n.made, n.named.mapValues (Instance.map f)⟩

variable (f : K → L) (n : Naming K)

theorem create_map (name : String) (payload : K) :
    (n.map f).create name (f payload) = (n.create name payload).map f := by
  have hnamed := n.named.insert_mapValues (Instance.map f) name (n.next name payload)
  simp only [create, map, ← hnamed]
  rfl

theorem instanceNamed_map (name : String) :
    (n.map f).instanceNamed name = (n.instanceNamed name).map (Instance.map f) :=
  n.named.named_mapValues (Instance.map f) name

theorem addName_map (name old : String) :
    (n.map f).addName name old = (n.addName name old).map (map f) := by
  unfold addName
  rw [instanceNamed_map]
  apply bind_map_eq
  intro a
  have hnamed := n.named.insert_mapValues (Instance.map f) name a
  simp only [map, hnamed]
  rfl

/-- A request finds what another one finds with other payloads, and makes as many instances. -/
def Follows {A B : Type} (f : K → L) (g : A → B) (request : StateT (Naming K) (Except Misuse) A)
    (request' : StateT (Naming L) (Except Misuse) B) : Prop :=
  ∀ n, request' (n.map f) = (request n).map (Prod.map g (map f))

variable {f : K → L} {A B A' B' : Type} {g : A → B} {g' : A' → B'}

theorem follows_pure (a : A) : Follows f g (pure a) (pure (g a)) := fun _ => rfl

theorem Follows.bind {x : StateT (Naming K) (Except Misuse) A}
    {y : StateT (Naming L) (Except Misuse) B} {k : A → StateT (Naming K) (Except Misuse) A'}
    {k' : B → StateT (Naming L) (Except Misuse) B'} (h : Follows f g x y)
    (hk : ∀ a, Follows f g' (k a) (k' (g a))) : Follows f g' (x >>= k) (y >>= k') := by
  intro n
  show (y (n.map f) >>= fun p => k' p.1 p.2) = _
  rw [h n]
  exact bind_map_eq fun p => hk p.1 p.2

theorem follows_mapM {k : A → StateT (Naming K) (Except Misuse) A'}
    {k' : B → StateT (Naming L) (Except Misuse) B'} (hk : ∀ a, Follows f g' (k a) (k' (g a)))
    (l : List A) : Follows f (List.map g') (l.mapM k) ((l.map g).mapM k') := by
  induction l with
  | nil => exact follows_pure []
  | cons a l ih =>
    rw [List.map_cons, List.mapM_cons, List.mapM_cons]
    exact (hk a).bind fun b => ih.bind fun bs => follows_pure (b :: bs)

/-- The instance under a name is the one with another payload, and so is one made on the spot. -/
theorem follows_resolve (k : Key K) :
    Follows f (Instance.map f) (resolve k) (resolve (k.map f)) := by
  intro n
  cases k with
  | named name =>
    show ((n.map f).instanceNamed name >>= fun a => pure (a, n.map f)) = _
    rw [instanceNamed_map]
    exact bind_map_eq fun _ => rfl
  | fresh payload => rfl

theorem follows_both (a b : Key K) :
    Follows f (Prod.map (Instance.map f) (Instance.map f)) (do return (← resolve a, ← resolve b))
      (do return (← resolve (a.map f), ← resolve (b.map f))) :=
  (follows_resolve a).bind fun x => (follows_resolve b).bind fun y => follows_pure (x, y)

theorem follows_entries (entries : List (Key K × V)) :
    Follows f (List.map (mapEntry f)) (entries.mapM fun (k, v) => return (← resolve k, v))
      ((entries.map fun e => (e.1.map f, e.2)).mapM fun (k, v) => return (← resolve k, v)) :=
  follows_mapM (fun e => (follows_resolve e.1).bind fun a => follows_pure (a, e.2)) entries

theorem follows_registry_command (c : Registry.Command (Key K) V) :
    Follows f (Registry.Command.map (Instance.map f)) (c.mapM resolve)
      ((c.map (Key.map f)).mapM resolve) := by
  cases c with
  | insert k v | write k v | touch k | erase k =>
    exact (follows_resolve k).bind fun _ => follows_pure _
  | insertAll l => exact (follows_entries l).bind fun _ => follows_pure _
  | clear | snapshot => exact follows_pure _

theorem follows_registry_query (q : Registry.Query (Key K) V) :
    Follows f (Registry.Query.map (Instance.map f)) (q.mapM resolve)
      ((q.map (Key.map f)).mapM resolve) := by
  cases q with
  | get k | contains k => exact (follows_resolve k).bind fun _ => follows_pure _
  | _ => exact follows_pure _

theorem follows_table_command (c : SlotTable.Command (Key K) V) :
    Follows f (SlotTable.Command.map (Instance.map f)) (c.mapM resolve)
      ((c.map (Key.map f)).mapM resolve) := by
  cases c with
  | insert k v | erase k => exact (follows_resolve k).bind fun _ => follows_pure _
  | clear => exact follows_pure _

theorem follows_table_query (q : SlotTable.Query (Key K) V) :
    Follows f (SlotTable.Query.map (Instance.map f)) (q.mapM resolve)
      ((q.map (Key.map f)).mapM resolve) := by
  cases q with
  | get k | contains k => exact (follows_resolve k).bind fun _ => follows_pure _
  | _ => exact follows_pure _

end Naming

/-! ### Workspaces -/

namespace Instance

def Command.map (f : K → L) : Command K V → Command L V
  | .newInstance h payload => .newInstance h (f payload)
  | .addName name h => .addName name h
  | .newRegistry r => .newRegistry r
  | .newRegistryFrom r entries => .newRegistryFrom r (entries.map fun e => (e.1.map f, e.2))
  | .newRegistryBy r settings => .newRegistryBy r settings
  | .registry r command => .registry r (command.map (Key.map f))
  | .keepSnapshot e r => .keepSnapshot e r
  | .newTable t capacity => .newTable t capacity
  | .newStandardTable t => .newStandardTable t
  | .newTableBy t settings => .newTableBy t settings
  | .copyTable t s => .copyTable t s
  | .resizeTable t s capacity => .resizeTable t s capacity
  | .promote r t => .promote r t
  | .table t command => .table t (command.map (Key.map f))

def Query.map (f : K → L) : Query K V → Query L V
  | .compare a b => .compare (a.map f) (b.map f)
  | .registry r question => .registry r (question.map (Key.map f))
  | .table t question => .table t (question.map (Key.map f))
  | .snapshot e => .snapshot e
  | .sameSnapshot e f => .sameSnapshot e f
  | .sameEntry r i s j => .sameEntry r i s j
  | .settings document => .settings document

namespace Workspace

def map (f : K → L) (w : Workspace K V) : Workspace L V where
  naming := w.naming.map f
  registriesMade := w.registriesMade
  registries := w.registries.mapValues (Registry.map f)
  tables := w.tables.mapValues (SlotTable.map f)
  snapshots := w.snapshots.mapValues (Snapshot.map f)

end Workspace

def Outcome.map (f : K → L) (o : Outcome K V) : Outcome L V where
  workspace := o.workspace.map f
  reply := o.reply.map f
  notices := o.notices

namespace Workspace

variable (f : K → L) (w : Workspace K V)

theorem setRegistry_map (name : String) (r : Registry K V) :
    (w.map f).setRegistry name (r.map f) = (w.setRegistry name r).map f := by
  have hregistries := w.registries.insert_mapValues (Registry.map f) name r
  simp only [setRegistry, map, ← hregistries]

theorem setTable_map (name : String) (t : SlotTable K V) :
    (w.map f).setTable name (t.map f) = (w.setTable name t).map f := by
  have htables := w.tables.insert_mapValues (SlotTable.map f) name t
  simp only [setTable, map, ← htables]

theorem resolving_map {A B : Type} {g : A → B} {request : StateT (Naming K) (Except Misuse) A}
    {request' : StateT (Naming L) (Except Misuse) B} (h : Naming.Follows f g request request') :
    (w.map f).resolving request' = (w.resolving request).map (Prod.map g (map f)) := by
  show (request' (w.naming.map f) >>= _) = _
  rw [h w.naming]
  exact bind_map_eq fun _ => rfl

theorem addRegistry_map (name : String) {make : Nat → Registry K V} {make' : Nat → Registry L V}
    (h : ∀ id, make' id = (make id).map f) :
    (w.map f).addRegistry name make' = (w.addRegistry name make).map f := by
  have hmade : (w.map f).registriesMade = w.registriesMade := rfl
  simp only [addRegistry, h, setRegistry_map, hmade, Registry.size_map]
  rfl

theorem addTable_map (name : String) (t : Except Fault (SlotTable K V)) :
    (w.map f).addTable name (t.map (SlotTable.map f)) = (w.addTable name t).map f := by
  cases t with
  | error fault => rfl
  | ok t =>
    simp only [Except.map, addTable, setTable_map, SlotTable.capacity_map]
    rfl

theorem naming_map : (w.map f).naming = w.naming.map f := rfl

theorem registry_named_map (name : String) :
    (w.map f).registries.named name = (w.registries.named name).map (Registry.map f) :=
  w.registries.named_mapValues (Registry.map f) name

theorem table_named_map (name : String) :
    (w.map f).tables.named name = (w.tables.named name).map (SlotTable.map f) :=
  w.tables.named_mapValues (SlotTable.map f) name

theorem snapshot_named_map (name : String) :
    (w.map f).snapshots.named name = (w.snapshots.named name).map (Snapshot.map f) :=
  w.snapshots.named_mapValues (Snapshot.map f) name

/-- A command with other payloads leads to the workspace with other payloads, with the same reply
and the same notices. -/
theorem perform_map (c : Command K V) :
    (w.map f).perform (c.map f) = (w.perform c).map (Outcome.map f) := by
  cases c with
  | newInstance h payload =>
    simp only [Command.map, perform, naming_map, Naming.create_map]
    rfl
  | addName name h =>
    simp only [Command.map, perform, naming_map, Naming.addName_map]
    exact bind_map_eq fun _ => rfl
  | newRegistry r => exact congrArg Except.ok (w.addRegistry_map f r fun _ => rfl)
  | newRegistryFrom r entries =>
    simp only [Command.map, perform]
    rw [w.resolving_map f (Naming.follows_entries entries)]
    exact bind_map_eq fun x =>
      congrArg Except.ok (x.2.addRegistry_map f r fun id => Registry.ofList_map f id x.1)
  | newRegistryBy r settings =>
    simp only [Command.map, perform]
    cases Settings.read settings with
    | ok _ => exact congrArg Except.ok (w.addRegistry_map f r fun _ => rfl)
    | error fault => rfl
  | registry r command =>
    simp only [Command.map, perform]
    rw [w.resolving_map f (Naming.follows_registry_command command)]
    refine bind_map_eq fun x => ?_
    simp only [Prod.map, registry_named_map]
    refine bind_map_eq fun registry => ?_
    simp only [Registry.perform_map, Registry.Outcome.map, setRegistry_map]
    rfl
  | keepSnapshot e r =>
    simp only [Command.map, perform, registry_named_map]
    refine bind_map_eq fun registry => ?_
    have hsnapshots := w.snapshots.insert_mapValues (Snapshot.map f) e registry.snapshot.snapshot
    simp only [Registry.snapshot_map, Registry.Snapped.map, setRegistry_map]
    exact congrArg (fun snapshots => Except.ok (Outcome.mk
      { (w.setRegistry r registry.snapshot.registry).map f with snapshots } _ [])) hsnapshots
  | newTable t capacity =>
    simp only [Command.map, perform, SlotTable.ofCapacity_map f, addTable_map]
    rfl
  | newStandardTable t =>
    have hstandard : SlotTable.standard = (SlotTable.standard : SlotTable K V).map f :=
      SlotTable.blank_map f _
    simp only [Command.map, perform, hstandard]
    exact congrArg Except.ok (w.addTable_map f t (.ok .standard))
  | newTableBy t settings =>
    have htable : (Settings.read settings >>= SlotTable.ofSettings) =
        (Settings.read settings >>= SlotTable.ofSettings : Except Fault (SlotTable K V)).map
          (SlotTable.map f) := by
      cases Settings.read settings with
      | error fault => rfl
      | ok s => exact SlotTable.ofCapacity_map f s.boundedCapacity
    simp only [Command.map, perform, htable, addTable_map]
    rfl
  | copyTable t s =>
    simp only [Command.map, perform, table_named_map]
    exact bind_map_eq fun table => congrArg Except.ok (w.addTable_map f t (.ok table))
  | resizeTable t s capacity =>
    simp only [Command.map, perform, table_named_map]
    refine bind_map_eq fun table => ?_
    rw [table.resized_map f capacity, addTable_map]
    rfl
  | promote r t =>
    simp only [Command.map, perform, table_named_map]
    refine bind_map_eq fun table => ?_
    have htables := w.tables.erase_mapValues (SlotTable.map f) t
    have hwithout : { w.map f with tables := (w.map f).tables.erase t } =
        map f { w with tables := w.tables.erase t } := by
      simp only [map, ← htables]
    rw [hwithout]
    exact congrArg Except.ok (addRegistry_map f _ r fun id => table.toRegistry_map f id)
  | table t command =>
    simp only [Command.map, perform]
    rw [w.resolving_map f (Naming.follows_table_command command)]
    refine bind_map_eq fun x => ?_
    simp only [Prod.map, table_named_map]
    refine bind_map_eq fun table => ?_
    simp only [SlotTable.perform_map, SlotTable.Outcome.map, setTable_map]
    rfl

variable [BEq K] [BEq L] [BEq V] [Rendered K] [Rendered L] [Rendered V]

/-- A query with other payloads gets the same reply, but for what depends on payloads. -/
theorem answer_map (q : Query K V) :
    ((w.map f).answer (q.map f)).map Reply.blank =
      (w.answer q).map fun reply => (reply.map f).blank := by
  cases q with
  | compare a b =>
    simp only [Query.map, answer]
    rw [w.resolving_map f (Naming.follows_both a b)]
    exact map_bind_map_eq fun _ => rfl
  | registry r question =>
    simp only [Query.map, answer]
    rw [w.resolving_map f (Naming.follows_registry_query question)]
    refine map_bind_map_eq fun x => ?_
    rw [registry_named_map]
    exact map_bind_map_eq fun registry => congrArg Except.ok (registry.answer_map f x.1)
  | table t question =>
    simp only [Query.map, answer]
    rw [w.resolving_map f (Naming.follows_table_query question)]
    refine map_bind_map_eq fun x => ?_
    rw [table_named_map]
    exact map_bind_map_eq fun table => congrArg Except.ok (table.answer_map f x.1)
  | snapshot e =>
    simp only [Query.map, answer, snapshot_named_map]
    exact map_bind_map_eq fun _ => rfl
  | sameSnapshot e f =>
    simp only [Query.map, answer, snapshot_named_map]
    exact map_bind_map_eq fun _ => map_bind_map_eq fun _ => rfl
  | sameEntry r i s j =>
    simp only [Query.map, answer, registry_named_map]
    refine map_bind_map_eq fun first => map_bind_map_eq fun second => ?_
    simp only [Registry.entrySet_map, List.getElem?_map]
    cases first.entrySet[i]? with
    | none => rfl
    | some a => cases second.entrySet[j]? <;> rfl
  | settings document =>
    simp only [Query.map, answer]
    cases Settings.read document <;> rfl

end Workspace

end Instance

end WorkTracking
