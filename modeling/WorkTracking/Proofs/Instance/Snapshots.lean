import WorkTracking.Instance.Workspace
import WorkTracking.Proofs.Instance.Entries

/-!
Snapshots of registries. A registry that keeps a snapshot keeps the one of its present entries, and
every snapshot made is numbered higher than those before. So a snapshot asked for is never out of
date, and two of them are the same one just if no call between them ended the validity of the first.
-/
namespace WorkTracking

namespace Registry

variable {K V : Type}

/-- What a registry can be asked for. -/
inductive Call (K V : Type) where
  | command (c : Command (Instance K) V)
  | query (q : Query (Instance K) V)

def after (r : Registry K V) : Call K V → Registry K V
  | .command c => (r.perform c).registry
  | .query _ => r

def run (r : Registry K V) (cs : List (Call K V)) : Registry K V := cs.foldl after r

theorem run_cons (r : Registry K V) (c : Call K V) (cs : List (Call K V)) :
    r.run (c :: cs) = (r.after c).run cs := rfl

/-- Whether a call ends the validity of the snapshot: it puts something in, opens or takes out what
is there, or clears. -/
def drops (r : Registry K V) : Call K V → Bool
  | .command (.insert _ _) => true
  | .command (.insertAll l) => !l.isEmpty
  | .command (.write k _) => r.contains k
  | .command (.touch k) => r.contains k
  | .command (.erase k) => r.contains k
  | .command .clear => true
  | .command .snapshot => false
  | .query _ => false

/-- None of the calls, each made where the ones before it have led, ends the validity. -/
def Undisturbed (r : Registry K V) : List (Call K V) → Prop
  | [] => True
  | c :: cs => r.drops c = false ∧ (r.after c).Undisturbed cs

instance decidableUndisturbed (r : Registry K V) :
    (cs : List (Call K V)) → Decidable (r.Undisturbed cs)
  | [] => .isTrue trivial
  | c :: cs =>
    have := decidableUndisturbed (r.after c) cs
    inferInstanceAs (Decidable (_ ∧ _))

/-! ### One call -/

/-- What is left of the snapshots of `r` when the latest one is no longer valid. -/
structure Invalidates (r later : Registry K V) : Prop where
  cached : later.cached = none
  makings : later.makings = r.makings

theorem insertAll_invalidates (r : Registry K V) (e : Instance K × V)
    (l : List (Instance K × V)) : r.Invalidates (r.insertAll (e :: l)) := by
  induction l generalizing r e with
  | nil => exact ⟨rfl, rfl⟩
  | cons d l ih =>
    obtain ⟨hcached, hmakings⟩ := ih (r.insert e.1 e.2).registry d
    exact ⟨hcached, hmakings⟩

theorem modify_cases (r : Registry K V) (k : Instance K) (change : V → V) :
    (r.contains k = true ∧ r.Invalidates (r.modify k change).registry) ∨
      (r.contains k = false ∧ (r.modify k change).registry = r) := by
  rw [contains_eq_isSome]
  unfold modify
  cases r.get? k with
  | some v => exact .inl ⟨rfl, rfl, rfl⟩
  | none => exact .inr ⟨rfl, rfl⟩

theorem erase_cases (r : Registry K V) (k : Instance K) :
    (r.contains k = true ∧ r.Invalidates (r.erase k).registry) ∨
      (r.contains k = false ∧ (r.erase k).registry = r) := by
  rw [contains_eq_isSome]
  unfold erase
  cases r.get? k with
  | some v => exact .inl ⟨rfl, rfl, rfl⟩
  | none => exact .inr ⟨rfl, rfl⟩

/-- A call ends the validity of the snapshot, or does nothing except that one may be made. -/
theorem after_cases (r : Registry K V) (c : Call K V) :
    (r.drops c = true ∧ r.Invalidates (r.after c)) ∨
      (r.drops c = false ∧ (r.after c = r ∨ r.after c = r.snapshot.registry)) := by
  cases c with
  | query q => exact .inr ⟨rfl, .inl rfl⟩
  | command c =>
    cases c with
    | insert k v => exact .inl ⟨rfl, rfl, rfl⟩
    | insertAll l =>
      cases l with
      | nil => exact .inr ⟨rfl, .inl rfl⟩
      | cons e l => exact .inl ⟨rfl, r.insertAll_invalidates e l⟩
    | write k v => exact (r.modify_cases k fun _ => v).imp_right (.imp_right .inl)
    | touch k => exact (r.modify_cases k fun v => v).imp_right (.imp_right .inl)
    | erase k => exact (r.erase_cases k).imp_right (.imp_right .inl)
    | clear => exact .inl ⟨rfl, rfl, rfl⟩
    | snapshot => exact .inr ⟨rfl, .inr rfl⟩

/-! ### Validity -/

/-- The snapshot kept is one that has been made, and shows the registry as it is. -/
structure Coherent (r : Registry K V) : Prop where
  entries : ∀ s, r.cached = some s → s.entries = r.toList
  made : ∀ s, r.cached = some s → s.making < r.makings

theorem coherent_of_not_cached {r : Registry K V} (h : r.cached = none) : r.Coherent := by
  constructor <;> simp [h]

theorem coherent_ofList (id : Nat) (l : List (Instance K × V)) : (ofList id l).Coherent := by
  apply coherent_of_not_cached
  cases l with
  | nil => rfl
  | cons e l => exact (insertAll_invalidates { id } e l).cached

namespace Coherent

variable {r : Registry K V}

/-- After a snapshot is asked for, it is the one kept, and it shows the registry. -/
theorem snapshot (h : r.Coherent) :
    r.snapshot.registry.Coherent ∧ r.snapshot.registry.cached = some r.snapshot.snapshot ∧
      r.snapshot.snapshot.entries = r.toList ∧ r.snapshot.registry.toList = r.toList := by
  unfold Registry.snapshot
  cases hcached : r.cached with
  | some s => exact ⟨h, hcached, h.entries s hcached, rfl⟩
  | none =>
    refine ⟨⟨?_, ?_⟩, rfl, rfl, rfl⟩
    · rintro s ⟨⟩
      rfl
    · rintro s ⟨⟩
      exact Nat.lt_succ_self r.makings

theorem after (h : r.Coherent) (c : Call K V) : (r.after c).Coherent := by
  rcases r.after_cases c with ⟨-, hdrop⟩ | ⟨-, hsame | hsnap⟩
  · exact coherent_of_not_cached hdrop.cached
  · rw [hsame]
    exact h
  · rw [hsnap]
    exact h.snapshot.1

theorem run (h : r.Coherent) (cs : List (Call K V)) : (r.run cs).Coherent := by
  induction cs generalizing r with
  | nil => exact h
  | cons c cs ih => exact ih (h.after c)

end Coherent

/-- A valid snapshot is the one handed out. -/
theorem snapshot_of_cached {r : Registry K V} {s : Snapshot K V} (h : r.cached = some s) :
    r.snapshot = ⟨r, s⟩ := by
  simp [snapshot, h]

/-- Without a call that ends its validity, a snapshot stays the one handed out. -/
theorem Undisturbed.cached_run {r : Registry K V} {cs : List (Call K V)} (h : r.Undisturbed cs)
    {s : Snapshot K V} (hs : r.cached = some s) : (r.run cs).cached = some s := by
  induction cs generalizing r with
  | nil => exact hs
  | cons c cs ih =>
    obtain ⟨hkept, hlater⟩ := h
    apply ih hlater
    rcases r.after_cases c with ⟨hdrop, -⟩ | ⟨-, hsame | hsnap⟩
    · rw [hkept] at hdrop
      cases hdrop
    · rw [hsame]
      exact hs
    · rw [hsnap, snapshot_of_cached hs]
      exact hs

/-- Whatever `r` hands out from now on is made later than the snapshot `s`. -/
structure Outdates (r : Registry K V) (s : Snapshot K V) : Prop where
  made : s.making < r.makings
  cached : ∀ t, r.cached = some t → s.making < t.making

namespace Outdates

variable {r : Registry K V} {s : Snapshot K V}

theorem of_invalidates {later : Registry K V} (h : r.Invalidates later)
    (hs : s.making < r.makings) : later.Outdates s where
  made := by
    rw [h.makings]
    exact hs
  cached := by simp [h.cached]

theorem snapshot (h : r.Outdates s) :
    r.snapshot.registry.Outdates s ∧ s.making < r.snapshot.snapshot.making := by
  unfold Registry.snapshot
  cases hcached : r.cached with
  | some t => exact ⟨h, h.cached t hcached⟩
  | none =>
    refine ⟨⟨Nat.lt_succ_of_lt h.made, ?_⟩, h.made⟩
    rintro t ⟨⟩
    exact h.made

theorem after (h : r.Outdates s) (c : Call K V) : (r.after c).Outdates s := by
  rcases r.after_cases c with ⟨-, hdrop⟩ | ⟨-, hsame | hsnap⟩
  · exact of_invalidates hdrop h.made
  · rw [hsame]
    exact h
  · rw [hsnap]
    exact h.snapshot.1

theorem run (h : r.Outdates s) (cs : List (Call K V)) : (r.run cs).Outdates s := by
  induction cs generalizing r with
  | nil => exact h
  | cons c cs ih => exact ih (h.after c)

theorem not_same (h : r.Outdates s) : s.same r.snapshot.snapshot = false := by
  have hlater := h.snapshot.2
  have hne : s.making ≠ r.snapshot.snapshot.making := by omega
  simp [Snapshot.same, hne]

end Outdates

/-- Once a call has ended the validity of a snapshot, only later ones are handed out. -/
theorem outdates_run {r : Registry K V} (hr : r.Coherent) {s : Snapshot K V}
    (hs : r.cached = some s) {cs : List (Call K V)} (h : ¬ r.Undisturbed cs) :
    (r.run cs).Outdates s := by
  induction cs generalizing r with
  | nil => exact absurd trivial h
  | cons c cs ih =>
    rw [run_cons]
    rcases r.after_cases c with ⟨-, hdrop⟩ | ⟨hkept, -⟩
    · -- from here on, whatever the other calls are
      exact (Outdates.of_invalidates hdrop (hr.made s hs)).run cs
    · have hkeeps : r.Undisturbed [c] := ⟨hkept, trivial⟩
      apply ih (hr.after c) (hkeeps.cached_run hs)
      intro hlater
      exact h ⟨hkept, hlater⟩

theorem same_snapshot_iff {r : Registry K V} (hr : r.Coherent) (cs : List (Call K V)) :
    r.snapshot.snapshot.same (r.snapshot.registry.run cs).snapshot.snapshot = true ↔
      r.snapshot.registry.Undisturbed cs := by
  obtain ⟨hfirst, hcached, -, -⟩ := hr.snapshot
  by_cases h : r.snapshot.registry.Undisturbed cs
  · rw [snapshot_of_cached (h.cached_run hcached)]
    simp [Snapshot.same, h]
  · rw [(outdates_run hfirst hcached h).not_same]
    simp [h]

end Registry

/-! ### Registries and snapshots under a name -/

namespace Instance.Workspace

variable {K V : Type}

/-- The workspace after a command. A misuse leaves it as it is. -/
def step (w : Workspace K V) (c : Command K V) : Workspace K V :=
  match w.perform c with
  | .ok outcome => outcome.workspace
  | .error _ => w

def run (w : Workspace K V) (cs : List (Command K V)) : Workspace K V := cs.foldl step w

theorem exists_naming_of_resolving {w : Workspace K V} {A : Type} {x : A × Workspace K V}
    {request : StateT (Naming K) (Except Misuse) A} (h : w.resolving request = .ok x) :
    ∃ naming, x.2 = { w with naming } := by
  obtain ⟨y, -, h⟩ := exists_of_bind_eq_ok h
  cases h
  exact ⟨y.2, rfl⟩

/-- What a command does to the registries and snapshots: it leaves them, makes a registry of a list
of entries, makes one call to a registry, or keeps a snapshot of one. -/
inductive Effect (w : Workspace K V) (c : Command K V) (w' : Workspace K V) : Prop
  | kept (hr : w'.registries = w.registries) (hs : w'.snapshots = w.snapshots)
  | made (name : String) (id : Nat) (given : List (Instance K × V))
      (hr : w'.registries = w.registries.insert name (.ofList id given))
      (hs : w'.snapshots = w.snapshots)
  | called (name : String) {r : Registry K V} (call : Registry.Command (Instance K) V)
      (h : w.registries.get? name = some r)
      (hr : w'.registries = w.registries.insert name (r.after (.command call)))
      (hs : w'.snapshots = w.snapshots)
  | snapped (e name : String) {r : Registry K V} (hc : c = .keepSnapshot e name)
      (h : w.registries.get? name = some r)
      (hr : w'.registries = w.registries.insert name r.snapshot.registry)
      (hs : w'.snapshots = w.snapshots.insert e r.snapshot.snapshot)

theorem effect_addTable (w : Workspace K V) (c : Command K V) (name : String)
    (t : Except Fault (SlotTable K V)) : w.Effect c (w.addTable name t).workspace := by
  cases t <;> exact .kept rfl rfl

theorem effect_of_ok {w : Workspace K V} {c : Command K V} {o : Outcome K V}
    (ho : w.perform c = .ok o) : w.Effect c o.workspace := by
  cases c with
  | newInstance =>
    cases ho
    exact .kept rfl rfl
  | addName =>
    obtain ⟨_, -, ho⟩ := exists_of_bind_eq_ok ho
    cases ho
    exact .kept rfl rfl
  | newRegistry name =>
    cases ho
    exact .made name w.registriesMade [] rfl rfl
  | newRegistryFrom name entries =>
    obtain ⟨⟨given, w'⟩, hw, ho⟩ := exists_of_bind_eq_ok ho
    obtain ⟨_, rfl⟩ := exists_naming_of_resolving hw
    cases ho
    exact .made name w.registriesMade given rfl rfl
  | newRegistryBy name settings =>
    simp only [perform] at ho
    split at ho <;> cases ho
    · exact .made name w.registriesMade [] rfl rfl
    · exact .kept rfl rfl
  | promote name t =>
    obtain ⟨table, -, ho⟩ := exists_of_bind_eq_ok ho
    cases ho
    exact .made name w.registriesMade table.toList rfl rfl
  | registry name command =>
    obtain ⟨⟨call, w'⟩, hw, ho⟩ := exists_of_bind_eq_ok ho
    obtain ⟨_, rfl⟩ := exists_naming_of_resolving hw
    obtain ⟨r, hr, ho⟩ := exists_of_bind_eq_ok ho
    cases ho
    exact .called name call (OrderedMap.get?_of_named hr) rfl rfl
  | keepSnapshot e name =>
    obtain ⟨r, hr, ho⟩ := exists_of_bind_eq_ok ho
    cases ho
    exact .snapped e name rfl (OrderedMap.get?_of_named hr) rfl rfl
  | table t command =>
    obtain ⟨_, hw, ho⟩ := exists_of_bind_eq_ok ho
    obtain ⟨_, hx⟩ := exists_naming_of_resolving hw
    obtain ⟨_, -, ho⟩ := exists_of_bind_eq_ok ho
    cases ho
    rw [hx]
    exact .kept rfl rfl
  | newTable | newStandardTable | newTableBy =>
    cases ho
    exact w.effect_addTable _ _ _
  | copyTable | resizeTable =>
    obtain ⟨_, -, ho⟩ := exists_of_bind_eq_ok ho
    cases ho
    exact w.effect_addTable _ _ _

theorem step_effect (w : Workspace K V) (c : Command K V) : w.Effect c (w.step c) := by
  unfold step
  cases ho : w.perform c with
  | error _ => exact .kept rfl rfl
  | ok o => exact effect_of_ok ho

theorem get?_snapshots_step {w : Workspace K V} {e : String} {c : Command K V}
    (hc : ∀ r, c ≠ .keepSnapshot e r) : (w.step c).snapshots.get? e = w.snapshots.get? e := by
  cases w.step_effect c with
  | kept _ hs | made _ _ _ _ hs | called _ _ _ _ hs => rw [hs]
  | snapped f r hkeep _ _ hs =>
    have hne : f ≠ e := by
      rintro rfl
      exact hc r hkeep
    simp [hs, OrderedMap.get?_insert, hne]

theorem get?_snapshots_run {w : Workspace K V} {e : String} {cs : List (Command K V)}
    (hcs : ∀ r, .keepSnapshot e r ∉ cs) : (w.run cs).snapshots.get? e = w.snapshots.get? e := by
  induction cs generalizing w with
  | nil => rfl
  | cons c cs ih =>
    have hc : ∀ r, c ≠ .keepSnapshot e r := by
      rintro r rfl
      exact hcs r (List.mem_cons_self ..)
    have hlater : ∀ r, .keepSnapshot e r ∉ cs := fun r hr => hcs r (List.mem_cons_of_mem c hr)
    exact (ih hlater).trans (get?_snapshots_step hc)

end Instance.Workspace

namespace Registry

variable {K V : Type}

/-- In every run of a registry, a snapshot asked for shows the entries of that moment. The next one
asked for, after whatever calls, is the same one just if none of these calls ended its validity. One
that has been handed out and kept under a name stays as it is until another is kept there. -/
theorem snapshots_show_present_entries (id : Nat) (l : List (Instance K × V))
    (before between : List (Call K V)) :
    let r := (ofList id l).run before
    let first := r.snapshot
    let later := first.registry.run between
    let second := later.snapshot
    first.snapshot.entries = r.toList ∧ first.registry.toList = r.toList ∧
    second.snapshot.entries = later.toList ∧
    (first.snapshot.same second.snapshot = true ↔ first.registry.Undisturbed between) ∧
    (first.snapshot.same second.snapshot = true → second.snapshot = first.snapshot) ∧
    ∀ (w : Instance.Workspace K V) (e : String) (cs : List (Instance.Command K V)),
      (∀ r, .keepSnapshot e r ∉ cs) → (w.run cs).snapshots.get? e = w.snapshots.get? e := by
  intro r first later second
  have hr : r.Coherent := (coherent_ofList id l).run before
  obtain ⟨hfirst, hcached, hentries, hlist⟩ := hr.snapshot
  have hlater : later.Coherent := hfirst.run between
  have hiff : first.snapshot.same second.snapshot = true ↔ first.registry.Undisturbed between :=
    same_snapshot_iff hr between
  refine ⟨hentries, hlist, hlater.snapshot.2.2.1, hiff, ?_, ?_⟩
  · intro hsame
    have hkept : later.cached = some first.snapshot := (hiff.mp hsame).cached_run hcached
    simp only [second, snapshot_of_cached hkept]
  · intro w e cs
    exact Instance.Workspace.get?_snapshots_run

/-- An empty registry keeps its snapshot while there is nothing to change, but not when it is
cleared. -/
theorem snapshots_show_present_entries_empty :
    let r : Registry Nat Nat := ofList 0 []
    let k : Instance Nat := ⟨0, "a", 5⟩
    let idle := r.snapshot.registry.run
      [.command (.touch k), .command (.erase k), .command (.insertAll []), .query .size]
    let cleared := r.snapshot.registry.run [.command .clear]
    let w := ({} : Instance.Workspace Nat Nat).run [.newRegistry "r", .keepSnapshot "e" "r"]
    r.snapshot.snapshot.same idle.snapshot.snapshot = true ∧
    r.snapshot.snapshot.same cleared.snapshot.snapshot = false ∧
    (w.run [.registry "r" (.insert (.fresh 5) 7)]).snapshots.get? "e" = w.snapshots.get? "e" := by
  intro r k idle cleared w
  obtain ⟨-, -, -, hidle, -, hkept⟩ := snapshots_show_present_entries 0 [] []
    [.command (.touch k), .command (.erase k), .command (.insertAll []), .query .size]
  obtain ⟨-, -, -, hcleared, -, -⟩ := snapshots_show_present_entries (K := Nat) (V := Nat) 0 [] []
    [.command .clear]
  refine ⟨hidle.mpr (by decide), ?_, hkept w "e" _ (by simp)⟩
  rw [Bool.eq_false_iff]
  exact mt hcleared.mp (by decide)

end Registry

end WorkTracking
