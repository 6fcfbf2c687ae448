import WorkTracking.Proofs.Vocabulary.Registration

/-!
Batches and single registrations. A batch leaves the values and ordinals that its values leave when
they are registered one after another, though it works on a copy of the edition that it publishes.
The copy is taken when the batch is complete: what its producer registers meanwhile is in it.
-/
namespace WorkTracking.Vocabulary

variable {V : Type} [DecidableEq V] [Hashable V]

/-! ### What is left in the end -/

theorem current_registerAll (u : Vocabulary V) (vs : List V) :
    (u.registerAll vs).vocabulary.current = u.current.addAll vs :=
  u.current_after (.batch vs)

theorem current_registerEach (u : Vocabulary V) (vs : List V) :
    (u.registerEach vs).vocabulary.current = u.current.addAll vs := by
  rw [registerEach_vocabulary, current_afterAll, Registration.flatMap_values_singles]

/-- An ordinal that was given out on the way is the one that the value has in the end. -/
theorem ordinals_serveAll (u : Vocabulary V) (vs : List V) :
    (u.serveAll (vs.map .single)).ordinals = vs.map (u.current.addAll vs).ordinal? := by
  induction vs generalizing u with
  | nil => rfl
  | cons v vs ih =>
    have hstep : (u.register v).vocabulary.current.addAll vs = u.current.addAll (v :: vs) :=
      congrArg (·.addAll vs) (u.current_after (.single v))
    have hfirst : (u.current.addAll (v :: vs)).ordinal? v = some (u.register v).ordinal := by
      rw [← hstep]
      exact Edition.ordinal?_addAll_of_known vs (u.ordinal?_register v)
    have hrest := ih (u.register v).vocabulary
    rw [hstep] at hrest
    simp only [List.map_cons, hfirst]
    exact congrArg (some (u.register v).ordinal :: ·) hrest

/-! ### Producers -/

/-- A vocabulary after a producer was asked for all its values, and the batch they make up. -/
structure Collected (V : Type) [BEq V] [Hashable V] extends Grown V where
  batch : List V

/-- Asks a producer for one value after another. Before it hands a value over it makes any calls on
the vocabulary as it is then, and so it does before it says that there are no more. -/
def draw (u : Vocabulary V) (last : List (Registration V)) :
    List (List (Registration V) × V) → Collected V
  | [] => { (u.serveAll last).toGrown with batch := [] }
  | (calls, handed) :: steps =>
    let first := u.serveAll calls
    let rest := first.vocabulary.draw last steps
    { vocabulary := rest.vocabulary
      growth := first.growth ++ rest.growth
      batch := handed :: rest.batch }

/-- The lock is taken, and the edition copied, when the producer has nothing more to hand over. -/
def registerDrawn (u : Vocabulary V) (last : List (Registration V))
    (steps : List (List (Registration V) × V)) : Grown V :=
  let drawn := u.draw last steps
  let batch := drawn.vocabulary.registerAll drawn.batch
  { batch with growth := drawn.growth ++ batch.growth }

theorem serveAll_append_toGrown (u : Vocabulary V) (rs ss : List (Registration V)) :
    (u.serveAll (rs ++ ss)).toGrown =
      { vocabulary := ((u.serveAll rs).vocabulary.serveAll ss).vocabulary
        growth := (u.serveAll rs).growth ++ ((u.serveAll rs).vocabulary.serveAll ss).growth } := by
  rw [serveAll_append, serveAll_vocabulary, serveAll_vocabulary]

theorem growth_serveAll_singleton (u : Vocabulary V) (r : Registration V) :
    (u.serveAll [r]).growth = (u.serve r).growth :=
  List.append_nil _

theorem draw_eq (u : Vocabulary V) (last : List (Registration V))
    (steps : List (List (Registration V) × V)) :
    u.draw last steps =
      { (u.serveAll (steps.flatMap Prod.fst ++ last)).toGrown with
        batch := steps.map Prod.snd } := by
  induction steps generalizing u with
  | nil => rfl
  | cons step steps ih =>
    simp only [draw, ih, List.flatMap_cons, List.append_assoc, serveAll_append_toGrown]
    rfl

/-- A batch comes down to the calls of its producer and then one more, so a producer may draw from
producers in turn. -/
theorem registerDrawn_eq (u : Vocabulary V) (last : List (Registration V))
    (steps : List (List (Registration V) × V)) :
    u.registerDrawn last steps =
      (u.serveAll (steps.flatMap Prod.fst ++ last ++ [.batch (steps.map Prod.snd)])).toGrown := by
  rw [serveAll_append_toGrown, growth_serveAll_singleton, registerDrawn, draw_eq]
  rfl

theorem current_registerDrawn (u : Vocabulary V) (last : List (Registration V))
    (steps : List (List (Registration V) × V)) :
    (u.registerDrawn last steps).vocabulary.current = u.current.addAll
      ((steps.flatMap Prod.fst ++ last).flatMap Registration.values ++ steps.map Prod.snd) := by
  rw [registerDrawn_eq, serveAll_vocabulary, current_afterAll, List.flatMap_append]
  simp [Registration.values]

/-- A producer that registers one value before each that it hands over. -/
def paired (pairs : List (V × V)) : List (List (Registration V) × V) :=
  pairs.map fun pair => ([.single pair.1], pair.2)

omit [DecidableEq V] [Hashable V] in
theorem flatMap_fst_paired (pairs : List (V × V)) :
    (paired pairs).flatMap Prod.fst = (pairs.map Prod.fst).map .single := by
  rw [paired, List.flatMap_map, List.map_map, List.map_eq_flatMap]
  rfl

omit [DecidableEq V] [Hashable V] in
theorem map_snd_paired (pairs : List (V × V)) :
    (paired pairs).map Prod.snd = pairs.map Prod.snd :=
  List.map_map

theorem registerProduced_eq_serveAll (u : Vocabulary V) (pairs : List (V × V)) :
    u.registerProduced pairs = (u.serveAll
      ((pairs.map Prod.fst).map .single ++ [.batch (pairs.map Prod.snd)])).toGrown := by
  rw [serveAll_append_toGrown, growth_serveAll_singleton, registerProduced,
    registerEach_eq_serveAll]
  rfl

theorem registerProduced_eq_registerDrawn (u : Vocabulary V) (pairs : List (V × V)) :
    u.registerProduced pairs = u.registerDrawn [] (paired pairs) := by
  rw [registerProduced_eq_serveAll, registerDrawn_eq, flatMap_fst_paired, map_snd_paired,
    List.append_nil]

/-! ### Batches and single registrations -/

/-- The vocabulary `later` is left by `u` when the values are registered one after another. -/
structure OneByOne (u : Vocabulary V) (vs : List V) (later : Vocabulary V) : Prop where
  edition : later.current = (u.registerEach vs).vocabulary.current
  listed : later.toList = (u.toList ++ vs).eraseDups
  nodup : later.toList.Nodup
  /-- Each value has the ordinal that it is given when it is registered. -/
  ordinals : (u.serveAll (vs.map .single)).ordinals = vs.map later.ordinal?
  placed : ∀ v ∈ vs, ∃ i, later.ordinal? v = some i ∧ later.value? i = some v
  kept : ∀ v i, u.ordinal? v = some i → later.ordinal? v = some i

theorem oneByOne_of_current {u later : Vocabulary V} (hu : u.current.Consistent) {vs : List V}
    (h : later.current = u.current.addAll vs) : u.OneByOne vs later := by
  have hlater : later.current.Consistent := h ▸ hu.addAll vs
  constructor
  · rw [h, current_registerEach]
  · rw [toList, h]
    exact hu.toList_addAll vs
  · exact hlater.nodup_toList
  · rw [ordinals_serveAll, ← h]
    rfl
  · intro v hv
    have hknown : ∃ i, (u.current.addAll vs).ordinal? v = some i := Edition.exists_ordinal_addAll hv
    rw [← h] at hknown
    obtain ⟨i, hi⟩ := hknown
    exact ⟨i, hi, (hlater v i).mp hi⟩
  · intro v i hi
    rw [ordinal?, h]
    exact Edition.ordinal?_addAll_of_known vs hi

/-- In every vocabulary there can be, a batch leaves the values and ordinals that are left when its
values are registered one after another, whatever is known already or comes twice. A producer that
registers another value before each one it hands over brings in first all values that it registers,
in their order, and then all that it hands over: each of them has one ordinal, the one given out
when it was registered. -/
theorem batch_registers_one_by_one (id : Nat) (past : List (Registration V)) (vs : List V)
    (pairs : List (V × V)) :
    let u := ({ id } : Vocabulary V).afterAll past
    u.OneByOne vs (u.registerAll vs).vocabulary ∧
    u.registerProduced pairs = u.registerDrawn [] (paired pairs) ∧
    u.OneByOne (pairs.map Prod.fst ++ pairs.map Prod.snd)
      (u.registerDrawn [] (paired pairs)).vocabulary := by
  intro u
  have hu : u.current.Consistent := consistent_afterAll Edition.consistent_empty past
  refine ⟨oneByOne_of_current hu (u.current_registerAll vs),
    u.registerProduced_eq_registerDrawn pairs, oneByOne_of_current hu ?_⟩
  rw [current_registerDrawn, List.append_nil, flatMap_fst_paired, map_snd_paired,
    Registration.flatMap_values_singles]

end WorkTracking.Vocabulary
