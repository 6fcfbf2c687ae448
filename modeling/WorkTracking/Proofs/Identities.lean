import WorkTracking.Ledger.NamedSession
import WorkTracking.Proofs.Instance.BoundedRegistry
import WorkTracking.Proofs.Instance.Snapshots
import WorkTracking.Proofs.Ledger.Table

/-!
What containers of instances go by. Registries, slot tables, ledgers and cursor sets hold an
instance at most once, under whatever names it comes in, and never take one for another: each of
them looks at identities alone.
-/
namespace WorkTracking

variable {K V : Type}

open OrderedMap (Keyed)

/-- No instance is held twice, and an instance is present just if one with its identity is held. -/
structure HeldByIdentity (held : List (Instance K)) (present : Instance K → Bool) : Prop where
  distinct : (held.map Instance.id).Nodup
  present_iff : ∀ k, present k = true ↔ ∃ a ∈ held, a.id = k.id

theorem heldByIdentity_of_pairwise {held : List (Instance K)} {present : Instance K → Bool}
    (h : held.Pairwise fun a b => (a == b) = false)
    (hpresent : ∀ k, present k = held.any (· == k)) : HeldByIdentity held present where
  distinct := by
    rw [List.nodup_iff_pairwise_ne, List.pairwise_map]
    exact h.imp fun hab hid => by simp [Instance.beq_eq_id, hid] at hab
  present_iff k := by simp [hpresent]

theorem heldByIdentity_of_keyed {B : Type} {l : List (Instance K × B)}
    {present : Instance K → Bool} (h : Keyed l)
    (hpresent : ∀ k, present k = l.any (·.1 == k)) :
    HeldByIdentity (l.map Prod.fst) present := by
  apply heldByIdentity_of_pairwise h
  intro k
  rw [hpresent, List.any_map]
  rfl

/-! ### Registries and slot tables -/

theorem Registry.heldByIdentity (r : Registry K V) : HeldByIdentity r.keys r.contains :=
  heldByIdentity_of_keyed r.keyed_toList r.contains_eq_any

namespace SlotTable

theorem Mirrors.resized {n capacity : Nat} {t u : SlotTable K V} {r : Registry K V}
    (h : Mirrors n t r) (hu : t.resized capacity = .ok u) : Mirrors capacity u r := by
  rcases resized_cases h.count capacity with ⟨-, hr⟩ | ⟨-, -, hr⟩ | ⟨hfits, -, hr⟩ <;>
    rw [hr] at hu <;> cases hu
  constructor
  · rw [capacity_packed, ← h.count]
    omega
  · rw [toList_packed]
    rfl
  · rw [toList_packed]
    exact h.entries

/-- The table keeps the entries of some registry. -/
def Sound (t : SlotTable K V) : Prop := ∃ n r, Mirrors n t r

theorem Sound.count {t : SlotTable K V} (h : t.Sound) : t.count = t.toList.length := by
  obtain ⟨_, _, hr⟩ := h
  exact hr.count

theorem Sound.keyed {t : SlotTable K V} (h : t.Sound) : Keyed t.toList := by
  obtain ⟨_, _, hr⟩ := h
  exact Instance.keyed_byIdentity.mp hr.keyed

theorem Sound.heldByIdentity {t : SlotTable K V} (h : t.Sound) :
    HeldByIdentity (t.toList.map Prod.fst) t.contains :=
  heldByIdentity_of_keyed h.keyed t.contains_eq_any

theorem sound_blank (n : Nat) : (blank n : SlotTable K V).Sound := ⟨n, { id := 0 }, .blank n 0⟩

theorem Sound.perform {t : SlotTable K V} (h : t.Sound) (c : Command (Instance K) V) :
    (t.perform c).table.Sound := by
  obtain ⟨n, r, hr⟩ := h
  exact ⟨n, _, (hr.respond c).state⟩

theorem sound_ofCapacity {n : Nat} {t : SlotTable K V} (h : ofCapacity n = .ok t) : t.Sound := by
  unfold ofCapacity at h
  split at h <;> cases h
  exact sound_blank n

theorem Sound.resized {n : Nat} {t u : SlotTable K V} (h : t.Sound) (hu : t.resized n = .ok u) :
    u.Sound := by
  obtain ⟨_, r, hr⟩ := h
  exact ⟨n, r, hr.resized hu⟩

end SlotTable

namespace Instance.Workspace

/-- Every table under a name is sound. -/
def TablesSound (w : Workspace K V) : Prop := ∀ name t, w.tables.get? name = some t → t.Sound

theorem tablesSound_empty : ({} : Workspace K V).TablesSound := by
  intro name t h
  simp at h

namespace TablesSound

variable {w : Workspace K V}

theorem of_tables_eq (h : w.TablesSound) {w' : Workspace K V} (hw : w'.tables = w.tables) :
    w'.TablesSound := by
  unfold TablesSound
  rw [hw]
  exact h

theorem setTable (h : w.TablesSound) {t : SlotTable K V} (ht : t.Sound) (name : String) :
    (w.setTable name t).TablesSound := by
  intro other s hs
  rw [Workspace.setTable, OrderedMap.get?_insert] at hs
  split at hs
  · cases hs
    exact ht
  · exact h other s hs

theorem addTable (h : w.TablesSound) {t : Except Fault (SlotTable K V)}
    (ht : ∀ table, t = .ok table → table.Sound) (name : String) :
    (w.addTable name t).workspace.TablesSound := by
  cases t with
  | error fault => exact h
  | ok table => exact h.setTable (ht table rfl) name

theorem tables_of_resolving {A : Type} {x : A × Workspace K V}
    {request : StateT (Naming K) (Except Misuse) A} (hx : w.resolving request = .ok x) :
    x.2.tables = w.tables := by
  obtain ⟨_, hw⟩ := exists_naming_of_resolving hx
  rw [hw]

theorem of_ok (h : w.TablesSound) {c : Command K V} {o : Outcome K V}
    (ho : w.perform c = .ok o) : o.workspace.TablesSound := by
  cases c with
  | newInstance | newRegistry =>
    cases ho
    exact h
  | addName =>
    obtain ⟨_, -, ho⟩ := exists_of_bind_eq_ok ho
    cases ho
    exact h
  | newRegistryFrom name entries =>
    obtain ⟨_, hx, ho⟩ := exists_of_bind_eq_ok ho
    cases ho
    exact h.of_tables_eq (tables_of_resolving hx)
  | newRegistryBy name settings =>
    simp only [Workspace.perform] at ho
    split at ho <;> cases ho <;> exact h
  | registry name command =>
    obtain ⟨_, hx, ho⟩ := exists_of_bind_eq_ok ho
    obtain ⟨_, -, ho⟩ := exists_of_bind_eq_ok ho
    cases ho
    exact h.of_tables_eq (tables_of_resolving hx)
  | keepSnapshot e name =>
    obtain ⟨_, -, ho⟩ := exists_of_bind_eq_ok ho
    cases ho
    exact h
  | newTable name capacity =>
    cases ho
    exact h.addTable (fun _ => SlotTable.sound_ofCapacity) name
  | newStandardTable name =>
    cases ho
    apply h.addTable
    rintro _ ⟨⟩
    exact SlotTable.sound_blank _
  | newTableBy name settings =>
    cases ho
    refine h.addTable (fun table ht => ?_) name
    cases hs : Settings.read settings with
    | error fault =>
      rw [hs] at ht
      cases ht
    | ok s =>
      rw [hs] at ht
      exact SlotTable.sound_ofCapacity ht
  | copyTable name s =>
    obtain ⟨table, hs, ho⟩ := exists_of_bind_eq_ok ho
    cases ho
    apply h.addTable
    rintro _ ⟨⟩
    exact h s table (OrderedMap.get?_of_named hs)
  | resizeTable name s capacity =>
    obtain ⟨table, hs, ho⟩ := exists_of_bind_eq_ok ho
    cases ho
    exact h.addTable (fun _ => (h s table (OrderedMap.get?_of_named hs)).resized) name
  | promote name t =>
    obtain ⟨table, -, ho⟩ := exists_of_bind_eq_ok ho
    cases ho
    intro other s hs
    have hkept : (w.tables.erase t).get? other = some s := hs
    rw [OrderedMap.get?_erase] at hkept
    split at hkept
    · cases hkept
    · exact h other s hkept
  | table name command =>
    obtain ⟨x, hx, ho⟩ := exists_of_bind_eq_ok ho
    obtain ⟨table, ht, ho⟩ := exists_of_bind_eq_ok ho
    cases ho
    have hthere : x.2.TablesSound := h.of_tables_eq (tables_of_resolving hx)
    exact hthere.setTable ((hthere name table (OrderedMap.get?_of_named ht)).perform x.1) name

theorem step (h : w.TablesSound) (c : Command K V) : (w.step c).TablesSound := by
  unfold Workspace.step
  cases ho : w.perform c with
  | error _ => exact h
  | ok o => exact h.of_ok ho

theorem run (h : w.TablesSound) (cs : List (Command K V)) : (w.run cs).TablesSound := by
  induction cs generalizing w with
  | nil => exact h
  | cons c cs ih => exact ih (h.step c)

end TablesSound

end Instance.Workspace

/-! ### Ledgers and cursor sets -/

namespace Ledger

theorem heldByIdentity {C : Type} [BEq C] {l : Ledger (Instance K) C} (h : Keyed l.toList) :
    HeldByIdentity (l.toList.map Prod.fst) l.contains :=
  heldByIdentity_of_keyed h l.contains_eq_any

variable {T : Type} [BEq T] [Shown T] [Rendered T]

/-- What a command does to the ledger of a session is one action. -/
theorem Session.exists_act (x : Session T) (c : Command T) :
    ∃ a, (x.perform c).session.ledger = (x.ledger.act a).1 := by
  cases c with
  | register s =>
    refine ⟨.register s, ?_⟩
    simp only [perform, act]
    cases x.ledger.register s <;> rfl
  | touch s => exact ⟨.openCursors s fun set => set, rfl⟩
  | openCursor s c => exact ⟨.openCursors s (·.insert c), rfl⟩
  | closeCursor s c => exact ⟨.openCursors s (·.erase c), rfl⟩
  | openAll s cs => exact ⟨.openCursors s (·.insertAll cs), rfl⟩
  | remove s choice =>
    refine ⟨.remove s choice, ?_⟩
    simp only [perform, Session.remove, act]
    cases x.ledger.remove s choice <;> rfl
  | clear => exact ⟨.clear, rfl⟩

theorem Session.keyed_perform [EquivBEq T] {x : Session T} (h : Keyed x.ledger.toList)
    (c : Command T) : Keyed (x.perform c).session.ledger.toList := by
  obtain ⟨a, ha⟩ := x.exists_act c
  rw [ha]
  exact keyed_act h a

end Ledger

theorem CursorSet.heldByIdentity (s : CursorSet (Instance K)) :
    HeldByIdentity s.members s.contains :=
  heldByIdentity_of_pairwise s.distinct fun _ => rfl

end WorkTracking
