import WorkTracking.Proofs.Vocabulary.Registration

/-!
Callers that register at the same time. A call for one value looks the value up without a lock, and
is done if the value is known; otherwise it waits for the lock, under which it looks again. A call
for a batch collects its values first and then waits for the lock. What happens under the lock, or
in one lookup, is one step, and the steps of all callers may come in any order.

Each call is decided in one of its steps: the lookup that finds the value, or the locked part. The
calls have the effect that they have when made one after another in the order of these steps.
-/
namespace WorkTracking

variable {V : Type} [DecidableEq V] [Hashable V]

namespace Vocabulary

/-- The locked part of a call. -/
def serveLocked (u : Vocabulary V) : Registration V → Served V
  | .single v => { u.settle v with ordinal := some (u.settle v).ordinal }
  | .batch vs => { u.registerAll vs with ordinal := none }

theorem serveLocked_eq_serve (u : Vocabulary V) (r : Registration V) :
    u.serveLocked r = u.serve r := by
  cases r with
  | single v => rw [serveLocked, serve, register_eq_settle]
  | batch vs => rfl

/-- The edition that a call has published, if any: the revision is another one then. -/
def publication? (u : Vocabulary V) (served : Served V) : Option (Edition V) :=
  if served.vocabulary.revision = u.revision then none else some served.vocabulary.current

theorem publication?_cases (u : Vocabulary V) (r : Registration V) :
    (u.publication? (u.serve r) = none ∧ (u.after r).revision = u.revision) ∨
      (u.publication? (u.serve r) = some (u.after r).current ∧
        (u.after r).revision = u.revision + 1) := by
  unfold publication?
  rcases u.after_cases r with ⟨-, h⟩ | ⟨-, h⟩
  · have hsame : (u.after r).revision = u.revision := by rw [h]
    exact .inl ⟨if_pos hsame, hsame⟩
  · have hnext : (u.after r).revision = u.revision + 1 := by rw [h, publish]
    have hne : (u.serve r).vocabulary.revision ≠ u.revision := by
      rw [← after, hnext]
      exact Nat.succ_ne_self _
    exact .inr ⟨if_neg hne, hnext⟩

end Vocabulary

/-- How far a caller has come. -/
inductive Standing (V : Type) where
  | calling (call : Registration V)
  | waiting (call : Registration V)
  | settled (call : Registration V) (ordinal : Option Nat)

def Standing.call {V : Type} : Standing V → Registration V
  | calling call | waiting call | settled call _ => call

/-- What was decided in a step of a caller, and which edition was published then. -/
structure Decision (V : Type) [BEq V] [Hashable V] where
  caller : Nat
  call : Registration V
  ordinal : Option Nat
  published : Option (Edition V)

/-- Callers by number around one vocabulary, with all that was reported and decided so far. -/
structure Race (V : Type) [BEq V] [Hashable V] where
  vocabulary : Vocabulary V
  callers : List (Standing V)
  growth : List Growth := []
  decisions : List (Decision V) := []

namespace Race

def start (u : Vocabulary V) (calls : List (Registration V)) : Race V where
  vocabulary := u
  callers := calls.map .calling

def wait (r : Race V) (k : Nat) (call : Registration V) : Race V :=
  { r with callers := r.callers.set k (.waiting call) }

/-- The call of `k` is decided. -/
def settle (r : Race V) (k : Nat) (call : Registration V) (served : Vocabulary.Served V) :
    Race V where
  vocabulary := served.vocabulary
  callers := r.callers.set k (.settled call served.ordinal)
  growth := r.growth ++ served.growth
  decisions := r.decisions ++ [{
    caller := k
    call
    ordinal := served.ordinal
    published := r.vocabulary.publication? served }]

/-- The next step of caller `k`, if there is one. -/
def advance (r : Race V) (k : Nat) : Race V :=
  match r.callers[k]? with
  | some (.calling (.single v)) =>
    match r.vocabulary.ordinal? v with
    | none => r.wait k (.single v)
    | some i =>
      r.settle k (.single v) { vocabulary := r.vocabulary, growth := [], ordinal := some i }
  | some (.calling (.batch vs)) => r.wait k (.batch vs)
  | some (.waiting call) => r.settle k call (r.vocabulary.serveLocked call)
  | some (.settled _ _) | none => r

def run (r : Race V) (schedule : List Nat) : Race V := schedule.foldl advance r

/-- All that a step can do. Whether a call is decided by its lookup or under the lock, the effect is
that of the whole call made at this moment. -/
theorem advance_cases (r : Race V) (k : Nat) :
    (r.advance k = r ∧ ∀ s, r.callers[k]? = some s → ∃ call o, s = .settled call o) ∨
    (∃ call, r.callers[k]? = some (.calling call) ∧ r.advance k = r.wait k call) ∨
    ∃ call, (r.callers[k]? = some (.calling call) ∨ r.callers[k]? = some (.waiting call)) ∧
      r.advance k = r.settle k call (r.vocabulary.serve call) := by
  unfold advance
  rcases hk : r.callers[k]? with _ | (v | vs) | call | ⟨call, o⟩
  · exact .inl ⟨rfl, fun s hs => by cases hs⟩
  · cases hv : r.vocabulary.ordinal? v with
    | none => exact .inr (.inl ⟨_, rfl, by simp [hv]⟩)
    | some i =>
      have hserve : r.vocabulary.serve (.single v) =
          { vocabulary := r.vocabulary, growth := [], ordinal := some i } := by
        simp [Vocabulary.serve, Vocabulary.settle_of_known hv]
      refine .inr (.inr ⟨.single v, .inl rfl, ?_⟩)
      simp [hv, hserve]
  · exact .inr (.inl ⟨_, rfl, rfl⟩)
  · refine .inr (.inr ⟨call, .inr rfl, ?_⟩)
    rw [← Vocabulary.serveLocked_eq_serve]
  · exact .inl ⟨rfl, fun s hs => by cases hs; exact ⟨call, o, rfl⟩⟩

/-! ### The callers -/

/-- Each caller stands by its call, and is settled just if the log of decisions says so. -/
structure Accounted (calls : List (Registration V)) (r : Race V) : Prop where
  calls : r.callers.map Standing.call = calls
  settled : ∀ k call o, r.callers[k]? = some (.settled call o) ↔
    ∃ d ∈ r.decisions, d.caller = k ∧ d.call = call ∧ d.ordinal = o
  nodup : (r.decisions.map Decision.caller).Nodup

variable {u : Vocabulary V} {calls : List (Registration V)} {r : Race V}

theorem accounted_start (u : Vocabulary V) (calls : List (Registration V)) :
    (start u calls).Accounted calls where
  calls := by
    rw [start, List.map_map]
    exact List.map_id calls
  settled k call o := by
    simp [start]
  nodup := List.nodup_nil

theorem getElem?_callers_set {k : Nat} {s : Standing V} (hk : r.callers[k]? = some s)
    (t : Standing V) (j : Nat) :
    (r.callers.set k t)[j]? = if k = j then some t else r.callers[j]? := by
  obtain ⟨hlt, -⟩ := List.getElem?_eq_some_iff.mp hk
  rw [List.getElem?_set, if_pos hlt]

theorem map_call_set {k : Nat} {s : Standing V} (hk : r.callers[k]? = some s) (t : Standing V)
    (hcall : t.call = s.call) :
    (r.callers.set k t).map Standing.call = r.callers.map Standing.call := by
  apply List.ext_getElem?
  intro j
  rw [List.getElem?_map, List.getElem?_map, getElem?_callers_set hk]
  by_cases hkj : k = j
  · subst hkj
    rw [if_pos rfl, hk, Option.map_some, Option.map_some, hcall]
  · rw [if_neg hkj]

/-- A caller that is not settled has no decision. -/
theorem Accounted.caller_ne (h : r.Accounted calls) {k : Nat} {s : Standing V}
    (hk : r.callers[k]? = some s) (hs : ∀ call o, s ≠ .settled call o) {d : Decision V}
    (hd : d ∈ r.decisions) : d.caller ≠ k := by
  intro hdk
  have hsettled := (h.settled k d.call d.ordinal).mpr ⟨d, hd, hdk, rfl, rfl⟩
  rw [hk] at hsettled
  exact hs _ _ (Option.some.inj hsettled)

theorem Accounted.wait (h : r.Accounted calls) {k : Nat} {call : Registration V}
    (hk : r.callers[k]? = some (.calling call)) : (r.wait k call).Accounted calls where
  calls := (map_call_set hk (.waiting call) rfl).trans h.calls
  settled j c o := by
    rw [Race.wait, getElem?_callers_set hk]
    by_cases hkj : k = j
    · subst hkj
      rw [if_pos rfl]
      constructor
      · intro hsettled
        cases hsettled
      · rintro ⟨d, hd, hdk, -⟩
        exact absurd hdk (h.caller_ne hk (fun _ _ => nofun) hd)
    · rw [if_neg hkj]
      exact h.settled j c o
  nodup := h.nodup

theorem Accounted.settle (h : r.Accounted calls) {k : Nat} {call : Registration V}
    (hk : r.callers[k]? = some (.calling call) ∨ r.callers[k]? = some (.waiting call))
    (served : Vocabulary.Served V) : (r.settle k call served).Accounted calls := by
  obtain ⟨s, hs, hcall, hopen⟩ : ∃ s, r.callers[k]? = some s ∧ s.call = call ∧
      ∀ c o, s ≠ .settled c o := by
    rcases hk with hk | hk
    · exact ⟨_, hk, rfl, fun _ _ => nofun⟩
    · exact ⟨_, hk, rfl, fun _ _ => nofun⟩
  constructor
  · exact (map_call_set hs (.settled call served.ordinal) hcall.symm).trans h.calls
  · intro j c o
    rw [Race.settle, getElem?_callers_set hs]
    by_cases hkj : k = j
    · subst hkj
      rw [if_pos rfl]
      constructor
      · intro hsettled
        cases hsettled
        exact ⟨_, List.mem_append_right _ (List.mem_singleton_self _), rfl, rfl, rfl⟩
      · rintro ⟨d, hd, hdk, rfl, rfl⟩
        rcases List.mem_append.mp hd with hd | hd
        · exact absurd hdk (h.caller_ne hs hopen hd)
        · rw [List.mem_singleton.mp hd]
    · rw [if_neg hkj, h.settled]
      constructor
      · rintro ⟨d, hd, hrest⟩
        exact ⟨d, List.mem_append_left _ hd, hrest⟩
      · rintro ⟨d, hd, hdj, hrest⟩
        rcases List.mem_append.mp hd with hd | hd
        · exact ⟨d, hd, hdj, hrest⟩
        · rw [List.mem_singleton.mp hd] at hdj
          exact absurd hdj hkj
  · simp only [Race.settle, List.map_append, List.map_cons, List.map_nil]
    refine List.nodup_append.mpr ⟨h.nodup, List.nodup_singleton _, ?_⟩
    intro a ha b hb hab
    obtain ⟨d, hd, rfl⟩ := List.mem_map.mp ha
    rw [List.mem_singleton.mp hb] at hab
    exact h.caller_ne hs hopen hd hab

theorem Accounted.advance (h : r.Accounted calls) (k : Nat) : (r.advance k).Accounted calls := by
  rcases r.advance_cases k with ⟨hsame, -⟩ | ⟨call, hk, hwait⟩ | ⟨call, hk, hsettle⟩
  · rw [hsame]
    exact h
  · rw [hwait]
    exact h.wait hk
  · rw [hsettle]
    exact h.settle hk _

theorem Accounted.run (h : r.Accounted calls) (schedule : List Nat) :
    (r.run schedule).Accounted calls := by
  induction schedule generalizing r with
  | nil => exact h
  | cons k schedule ih => exact ih (h.advance k)

/-! ### Progress -/

/-- How many steps a caller has to take yet. -/
def stepsLeft (r : Race V) (k : Nat) : Nat :=
  match r.callers[k]? with
  | some (.calling _) => 2
  | some (.waiting _) => 1
  | some (.settled _ _) | none => 0

theorem stepsLeft_advance (r : Race V) (j k : Nat) :
    (r.advance j).stepsLeft k ≤ r.stepsLeft k - if j = k then 1 else 0 := by
  have hother {s : Standing V} (hs : r.callers[j]? = some s) (t : Standing V) (hjk : j ≠ k) :
      (r.callers.set j t)[k]? = r.callers[k]? := by
    rw [getElem?_callers_set hs, if_neg hjk]
  rcases r.advance_cases j with ⟨hsame, hsettled⟩ | ⟨call, hj, hwait⟩ | ⟨call, hj, hsettle⟩
  · rw [hsame]
    by_cases hjk : j = k
    · subst hjk
      have hnone : r.stepsLeft j = 0 := by
        unfold stepsLeft
        cases hs : r.callers[j]? with
        | none => rfl
        | some s =>
          obtain ⟨call, o, rfl⟩ := hsettled s hs
          rfl
      omega
    · simp [hjk]
  · rw [hwait]
    by_cases hjk : j = k
    · subst hjk
      simp [stepsLeft, wait, getElem?_callers_set hj, hj]
    · simp [stepsLeft, wait, hother hj _ hjk, hjk]
  · rw [hsettle]
    obtain ⟨s, hs⟩ : ∃ s, r.callers[j]? = some s := by
      rcases hj with hj | hj <;> exact ⟨_, hj⟩
    by_cases hjk : j = k
    · subst hjk
      simp [stepsLeft, settle, getElem?_callers_set hs]
    · simp [stepsLeft, settle, hother hs _ hjk, hjk]

theorem stepsLeft_run (r : Race V) (schedule : List Nat) (k : Nat) :
    (r.run schedule).stepsLeft k ≤ r.stepsLeft k - schedule.count k := by
  induction schedule generalizing r with
  | nil => exact Nat.le_refl _
  | cons j schedule ih =>
    have hstep := r.stepsLeft_advance j k
    have hrest := ih (r.advance j)
    rw [List.count_cons]
    simp only [beq_iff_eq]
    change ((r.advance j).run schedule).stepsLeft k ≤ _
    omega

theorem stepsLeft_le (r : Race V) (k : Nat) : r.stepsLeft k ≤ 2 := by
  unfold stepsLeft
  split <;> omega

/-- Two steps are enough for every caller, whatever the others do. -/
theorem Accounted.decided_of_count (h : r.Accounted calls) {schedule : List Nat} {k : Nat}
    (hk : k < calls.length) (hcount : 2 ≤ schedule.count k) :
    ∃ d ∈ (r.run schedule).decisions, d.caller = k := by
  have hfinal := h.run schedule
  have hlt : k < (r.run schedule).callers.length := by
    rw [← hfinal.calls, List.length_map] at hk
    exact hk
  have hleft : (r.run schedule).stepsLeft k = 0 := by
    have hrun := r.stepsLeft_run schedule k
    have hle := r.stepsLeft_le k
    omega
  have hget := List.getElem?_eq_getElem hlt
  unfold stepsLeft at hleft
  rw [hget] at hleft
  cases hs : (r.run schedule).callers[k] with
  | calling call => simp [hs] at hleft
  | waiting call => simp [hs] at hleft
  | settled call o =>
    rw [hs] at hget
    obtain ⟨d, hd, hdk, -⟩ := (hfinal.settled k call o).mp hget
    exact ⟨d, hd, hdk⟩

/-! ### The vocabulary -/

/-- The calls decided so far, in the order of their deciding steps. -/
def decided (r : Race V) : List (Registration V) := r.decisions.map Decision.call

/-- The vocabulary is as if the decided calls had been made one after another, and what was replied
and published on the way is found in it. -/
structure InOrder (u : Vocabulary V) (r : Race V) : Prop where
  served : u.serveAll r.decided =
    { vocabulary := r.vocabulary, growth := r.growth, ordinals := r.decisions.map Decision.ordinal }
  ordinals : ∀ d ∈ r.decisions, ∀ v, d.call = .single v →
    ∃ i, d.ordinal = some i ∧ r.vocabulary.ordinal? v = some i
  published : ∀ d ∈ r.decisions, ∀ e, d.published = some e →
    (∀ v ∈ d.call.values, ∃ i, e.ordinal? v = some i) ∧ e.toList <+: r.vocabulary.toList
  revision : r.vocabulary.revision =
    u.revision + (r.decisions.filterMap Decision.published).length

theorem inOrder_start (u : Vocabulary V) (calls : List (Registration V)) :
    (start u calls).InOrder u where
  served := rfl
  ordinals d hd := by cases hd
  published d hd := by cases hd
  revision := rfl

theorem InOrder.vocabulary_eq (h : r.InOrder u) : r.vocabulary = u.afterAll r.decided := by
  rw [← Vocabulary.serveAll_vocabulary, h.served]

theorem InOrder.settle (h : r.InOrder u) (k : Nat) (call : Registration V) :
    (r.settle k call (r.vocabulary.serve call)).InOrder u where
  served := by
    have hdecided : (r.settle k call (r.vocabulary.serve call)).decided = r.decided ++ [call] := by
      simp [decided, Race.settle]
    rw [hdecided, Vocabulary.serveAll_append, h.served, ← h.vocabulary_eq]
    simp [Race.settle, Vocabulary.serveAll, Vocabulary.afterAll, Vocabulary.after]
  ordinals d hd v hv := by
    rcases List.mem_append.mp hd with hd | hd
    · obtain ⟨i, hi, hv⟩ := h.ordinals d hd v hv
      exact ⟨i, hi, Vocabulary.ordinal?_afterAll_of_known [call] hv⟩
    · rw [List.mem_singleton.mp hd] at hv ⊢
      obtain rfl : call = .single v := hv
      exact ⟨_, rfl, r.vocabulary.ordinal?_register v⟩
  published d hd e he := by
    have hgrows : r.vocabulary.toList <+: (r.vocabulary.after call).toList := by
      rw [Vocabulary.toList, Vocabulary.toList, Vocabulary.current_after]
      exact r.vocabulary.current.prefix_addAll _
    rcases List.mem_append.mp hd with hd | hd
    · obtain ⟨hvalues, hprefix⟩ := h.published d hd e he
      exact ⟨hvalues, hprefix.trans hgrows⟩
    · rw [List.mem_singleton.mp hd] at he ⊢
      change r.vocabulary.publication? _ = some e at he
      obtain rfl : (r.vocabulary.after call).current = e := by
        rcases r.vocabulary.publication?_cases call with ⟨hnone, -⟩ | ⟨hsome, -⟩
        · rw [hnone] at he
          cases he
        · rw [hsome] at he
          exact Option.some.inj he
      refine ⟨fun v hv => ?_, List.prefix_rfl⟩
      rw [Vocabulary.current_after]
      exact Edition.exists_ordinal_addAll hv
  revision := by
    change (r.vocabulary.after call).revision = _
    rw [Race.settle, List.filterMap_append, List.length_append, ← Nat.add_assoc, ← h.revision]
    rcases r.vocabulary.publication?_cases call with ⟨hnone, hsame⟩ | ⟨hsome, hnext⟩
    · rw [hsame]
      simp [hnone]
    · rw [hnext]
      simp [hsome]

theorem InOrder.advance (h : r.InOrder u) (k : Nat) : (r.advance k).InOrder u := by
  rcases r.advance_cases k with ⟨hsame, -⟩ | ⟨call, -, hwait⟩ | ⟨call, -, hsettle⟩
  · rw [hsame]
    exact h
  · rw [hwait]
    exact ⟨h.served, h.ordinals, h.published, h.revision⟩
  · rw [hsettle]
    exact h.settle k call

theorem InOrder.run (h : r.InOrder u) (schedule : List Nat) : (r.run schedule).InOrder u := by
  induction schedule generalizing r with
  | nil => exact h
  | cons k schedule ih => exact ih (h.advance k)

/-- What has come of calls by the steps of a schedule is what comes of them one after another, in
the order of their deciding steps. -/
structure OneAfterAnother (u : Vocabulary V) (requests : List (Registration V))
    (schedule : List Nat) (r : Race V) : Prop extends Accounted requests r, InOrder u r where
  /-- Two steps are enough for every caller. -/
  finished : ∀ k < requests.length, 2 ≤ schedule.count k → ∃ d ∈ r.decisions, d.caller = k
  /-- Two callers are given the same ordinal just if they asked for the same value. -/
  same_iff : ∀ d ∈ r.decisions, ∀ e ∈ r.decisions, ∀ v w, d.call = .single v →
    e.call = .single w → (d.ordinal = e.ordinal ↔ v = w)
  /-- No value is lost. -/
  listed : r.vocabulary.toList =
    (u.toList ++ r.decided.flatMap Registration.values).eraseDups
  listed_once : r.vocabulary.toList.Nodup
  /-- What others register between the lookup and the lock of a caller comes before its value. -/
  raced : ∀ v others, (u.registerRaced v others).toGrown = u.registerEach (others ++ [v]) ∧
    (u.registerRaced v others).vocabulary.ordinal? v = some (u.registerRaced v others).ordinal

/-- However the steps of the callers are mixed, the calls take effect one after another in the order
of their deciding steps: vocabulary, reports and replies are those of the calls made in this order.
Every caller that takes two steps is done, and the ordinal it got is that of its value for good; no
value is registered twice, and none is lost. A call publishes at most one edition, with all of its
values. In particular, a value that others register meanwhile is registered as if after theirs. -/
theorem decided_one_after_another (id : Nat) (past calls : List (Registration V))
    (schedule : List Nat) :
    let u := ({ id } : Vocabulary V).afterAll past
    ((start u calls).run schedule).OneAfterAnother u calls schedule := by
  intro u
  have hcallers : ((start u calls).run schedule).Accounted calls :=
    (accounted_start u calls).run schedule
  have horder : ((start u calls).run schedule).InOrder u := (inOrder_start u calls).run schedule
  have hu : u.current.Consistent := Vocabulary.consistent_afterAll Edition.consistent_empty past
  have hr : ((start u calls).run schedule).vocabulary.current.Consistent := by
    rw [horder.vocabulary_eq]
    exact Vocabulary.consistent_afterAll hu _
  refine { hcallers, horder with
    finished := fun k hk hcount => (accounted_start u calls).decided_of_count hk hcount
    same_iff := fun d hd e he v w hv hw => ?_
    listed := ?_
    listed_once := hr.nodup_toList
    raced := fun v others => ⟨u.registerRaced_toGrown v others, ?_⟩ }
  · obtain ⟨i, hi, hvi⟩ := horder.ordinals d hd v hv
    obtain ⟨j, hj, hwj⟩ := horder.ordinals e he w hw
    rw [hi, hj]
    constructor
    · intro hij
      rw [← Option.some.inj hij] at hwj
      exact Option.some.inj (((hr v i).mp hvi).symm.trans ((hr w i).mp hwj))
    · rintro rfl
      exact hvi.symm.trans hwj
  · rw [Vocabulary.toList, horder.vocabulary_eq, Vocabulary.current_afterAll]
    exact hu.toList_addAll _
  · rw [Vocabulary.registerRaced_eq]
    exact Vocabulary.ordinal?_register _ v

end Race

end WorkTracking
