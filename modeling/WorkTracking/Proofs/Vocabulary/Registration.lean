import WorkTracking.Proofs.Vocabulary.Editions
import WorkTracking.Vocabulary.Basic

/-!
Registration seen as calls on a vocabulary, each for one value or for a batch. A call publishes an
edition just if it brings in a new value, and the edition then holds all values of the call. The
other ways to register come down to calls made one after another.
-/
namespace WorkTracking

inductive Registration (V : Type) where
  | single (v : V)
  | batch (vs : List V)

namespace Registration

variable {V : Type}

def values : Registration V → List V
  | single v => [v]
  | batch vs => vs

theorem flatMap_values_singles (vs : List V) : (vs.map single).flatMap values = vs := by
  rw [List.flatMap_map]
  exact List.flatMap_singleton' vs

end Registration

namespace Vocabulary

variable {V : Type} [DecidableEq V] [Hashable V]

/-- A vocabulary after a call, and the ordinal that the call asked for. A batch asks for none. -/
structure Served (V : Type) [BEq V] [Hashable V] extends Grown V where
  ordinal : Option Nat

def serve (u : Vocabulary V) : Registration V → Served V
  | .single v => { u.register v with ordinal := some (u.register v).ordinal }
  | .batch vs => { u.registerAll vs with ordinal := none }

def after (u : Vocabulary V) (r : Registration V) : Vocabulary V := (u.serve r).vocabulary

/-- The vocabulary after calls made one after another. -/
def afterAll (u : Vocabulary V) (rs : List (Registration V)) : Vocabulary V := rs.foldl after u

@[simp] theorem afterAll_nil (u : Vocabulary V) : u.afterAll [] = u := rfl

theorem afterAll_cons (u : Vocabulary V) (r : Registration V) (rs : List (Registration V)) :
    u.afterAll (r :: rs) = (u.after r).afterAll rs := rfl

theorem afterAll_append (u : Vocabulary V) (rs ss : List (Registration V)) :
    u.afterAll (rs ++ ss) = (u.afterAll rs).afterAll ss :=
  List.foldl_append

/-! ### One call -/

/-- A call for known values changes nothing and reports nothing. -/
theorem serve_of_known {u : Vocabulary V} {r : Registration V}
    (h : ∀ v ∈ r.values, ∃ i, u.ordinal? v = some i) :
    (u.serve r).vocabulary = u ∧ (u.serve r).growth = [] := by
  cases r with
  | single v =>
    obtain ⟨i, hi⟩ := h v (by simp [Registration.values])
    simp [serve, settle_of_known hi]
  | batch vs =>
    have hsize : (u.current.addAll vs).size = u.size := (u.current.size_addAll_eq_iff vs).mpr h
    simp [serve, registerAll, hsize]

/-- A call that brings in a new value publishes one edition, with all its values. -/
theorem after_of_new {u : Vocabulary V} {r : Registration V}
    (h : ∃ v ∈ r.values, u.ordinal? v = none) :
    u.after r = u.publish (·.addAll r.values) := by
  cases r with
  | single v =>
    obtain ⟨w, hw, hnew⟩ := h
    obtain rfl : w = v := by simpa [Registration.values] using hw
    have hadd : u.current.addAll [w] = u.current.push w := Edition.add_of_new hnew
    simp [after, serve, settle, hnew, publish, Registration.values, hadd]
  | batch vs =>
    have hsize : (u.current.addAll vs).size ≠ u.size := by
      intro hsize
      obtain ⟨w, hw, hnew⟩ := h
      obtain ⟨i, hi⟩ := (u.current.size_addAll_eq_iff vs).mp hsize w hw
      rw [ordinal?, hi] at hnew
      cases hnew
    simp [after, serve, registerAll, hsize, publish, Registration.values]

/-- All that a call can do to a vocabulary. -/
theorem after_cases (u : Vocabulary V) (r : Registration V) :
    ((∀ v ∈ r.values, ∃ i, u.ordinal? v = some i) ∧ u.after r = u) ∨
      ((∃ v ∈ r.values, u.ordinal? v = none) ∧ u.after r = u.publish (·.addAll r.values)) := by
  by_cases h : ∃ v ∈ r.values, u.ordinal? v = none
  · exact .inr ⟨h, after_of_new h⟩
  · have hknown : ∀ v ∈ r.values, ∃ i, u.ordinal? v = some i := fun v hv =>
      Option.ne_none_iff_exists'.mp fun hnone => h ⟨v, hv, hnone⟩
    exact .inl ⟨hknown, (serve_of_known hknown).1⟩

@[simp] theorem current_after (u : Vocabulary V) (r : Registration V) :
    (u.after r).current = u.current.addAll r.values := by
  rcases u.after_cases r with ⟨hknown, h⟩ | ⟨-, h⟩
  · rw [h, Edition.addAll_of_known hknown]
  · rw [h, publish]

@[simp] theorem id_after (u : Vocabulary V) (r : Registration V) : (u.after r).id = u.id := by
  rcases u.after_cases r with ⟨-, h⟩ | ⟨-, h⟩
  · rw [h]
  · rw [h, publish]

theorem ordinal?_register (u : Vocabulary V) (v : V) :
    (u.register v).vocabulary.ordinal? v = some (u.register v).ordinal := by
  rw [register_eq_settle]
  unfold settle
  split
  next i h => exact h
  next h => simp [publish, ordinal?, Edition.ordinal?_push, size]

/-! ### Calls one after another -/

@[simp] theorem current_afterAll (u : Vocabulary V) (rs : List (Registration V)) :
    (u.afterAll rs).current = u.current.addAll (rs.flatMap Registration.values) := by
  induction rs generalizing u with
  | nil => rfl
  | cons r rs ih =>
    rw [afterAll_cons, ih, current_after, List.flatMap_cons, Edition.addAll_append]

@[simp] theorem id_afterAll (u : Vocabulary V) (rs : List (Registration V)) :
    (u.afterAll rs).id = u.id := by
  induction rs generalizing u with
  | nil => rfl
  | cons r rs ih => rw [afterAll_cons, ih, id_after]

theorem size_le_afterAll (u : Vocabulary V) (rs : List (Registration V)) :
    u.size ≤ (u.afterAll rs).size := by
  rw [size, size, current_afterAll]
  exact Edition.size_le_addAll _ _

theorem consistent_afterAll {u : Vocabulary V} (hu : u.current.Consistent)
    (rs : List (Registration V)) : (u.afterAll rs).current.Consistent := by
  rw [current_afterAll]
  exact hu.addAll _

theorem ordinal?_afterAll_of_known {u : Vocabulary V} (rs : List (Registration V)) {v : V} {i : Nat}
    (h : u.ordinal? v = some i) : (u.afterAll rs).ordinal? v = some i := by
  rw [ordinal?, current_afterAll]
  exact Edition.ordinal?_addAll_of_known _ h

theorem value?_afterAll {u : Vocabulary V} (hu : u.current.Consistent)
    (rs : List (Registration V)) {p : Nat} (hp : p < u.size) :
    (u.afterAll rs).value? p = u.value? p := by
  obtain ⟨v, hv⟩ := (hu.exists_ordinal_iff p).mpr hp
  have hbefore : u.value? p = some v := (hu v p).mp hv
  have hafter : (u.afterAll rs).value? p = some v :=
    (consistent_afterAll hu rs v p).mp (ordinal?_afterAll_of_known rs hv)
  rw [hbefore, hafter]

/-- A vocabulary after calls made one after another, with all that was reported and the ordinals
that were asked for. -/
structure ServedAll (V : Type) [BEq V] [Hashable V] extends Grown V where
  ordinals : List (Option Nat)

def serveAll (u : Vocabulary V) : List (Registration V) → ServedAll V
  | [] => { vocabulary := u, growth := [], ordinals := [] }
  | r :: rs =>
    let first := u.serve r
    let rest := first.vocabulary.serveAll rs
    { vocabulary := rest.vocabulary
      growth := first.growth ++ rest.growth
      ordinals := first.ordinal :: rest.ordinals }

theorem serveAll_vocabulary (u : Vocabulary V) (rs : List (Registration V)) :
    (u.serveAll rs).vocabulary = u.afterAll rs := by
  induction rs generalizing u with
  | nil => rfl
  | cons r rs ih => exact ih (u.after r)

theorem serveAll_append (u : Vocabulary V) (rs ss : List (Registration V)) :
    u.serveAll (rs ++ ss) =
      { vocabulary := (u.afterAll rs).afterAll ss
        growth := (u.serveAll rs).growth ++ ((u.afterAll rs).serveAll ss).growth
        ordinals := (u.serveAll rs).ordinals ++ ((u.afterAll rs).serveAll ss).ordinals } := by
  induction rs generalizing u with
  | nil => rw [List.nil_append, afterAll_nil, ← serveAll_vocabulary]; rfl
  | cons r rs ih =>
    rw [List.cons_append, serveAll, ← after, ih, serveAll, ← after, afterAll_cons,
      List.append_assoc, List.cons_append]

theorem registerEach_eq_serveAll (u : Vocabulary V) (vs : List V) :
    u.registerEach vs = (u.serveAll (vs.map .single)).toGrown := by
  induction vs generalizing u with
  | nil => rfl
  | cons v vs ih =>
    rw [registerEach, ih]
    rfl

theorem registerEach_vocabulary (u : Vocabulary V) (vs : List V) :
    (u.registerEach vs).vocabulary = u.afterAll (vs.map .single) := by
  rw [registerEach_eq_serveAll, serveAll_vocabulary]

theorem registerEach_append (u : Vocabulary V) (vs ws : List V) :
    u.registerEach (vs ++ ws) =
      { vocabulary := ((u.registerEach vs).vocabulary.registerEach ws).vocabulary
        growth := (u.registerEach vs).growth ++
          ((u.registerEach vs).vocabulary.registerEach ws).growth } := by
  simp only [registerEach_eq_serveAll, List.map_append, serveAll_append, serveAll_vocabulary]

/-- A value that others register meanwhile comes after theirs, or keeps the ordinal it had. -/
theorem registerRaced_eq (u : Vocabulary V) (v : V) (others : List V) :
    u.registerRaced v others =
      { (u.registerEach others).vocabulary.register v with
        growth := (u.registerEach others).growth ++
          ((u.registerEach others).vocabulary.register v).growth } := by
  unfold registerRaced
  cases h : u.ordinal? v with
  | none => simp
  | some i =>
    have hkept : (u.registerEach others).vocabulary.ordinal? v = some i := by
      rw [registerEach_vocabulary]
      exact ordinal?_afterAll_of_known _ h
    simp [settle_of_known hkept]

theorem registerRaced_toGrown (u : Vocabulary V) (v : V) (others : List V) :
    (u.registerRaced v others).toGrown = u.registerEach (others ++ [v]) := by
  rw [registerRaced_eq, registerEach_append]
  simp [registerEach]

theorem registerRaced_vocabulary (u : Vocabulary V) (v : V) (others : List V) :
    (u.registerRaced v others).vocabulary = u.afterAll ((others ++ [v]).map .single) := by
  rw [registerRaced_toGrown, registerEach_vocabulary]

theorem registerProduced_vocabulary (u : Vocabulary V) (pairs : List (V × V)) :
    (u.registerProduced pairs).vocabulary =
      u.afterAll ((pairs.map Prod.fst).map .single ++ [.batch (pairs.map Prod.snd)]) := by
  rw [afterAll_append, ← registerEach_vocabulary]
  rfl

/-! ### Editions published in the course of calls -/

/-- The current edition before the calls, and after each of them. -/
def published (u : Vocabulary V) : List (Registration V) → List (Edition V)
  | [] => [u.current]
  | r :: rs => u.current :: (u.after r).published rs

theorem mem_published {u : Vocabulary V} {rs : List (Registration V)} {e : Edition V} :
    e ∈ u.published rs ↔
      ∃ past future, rs = past ++ future ∧ e = (u.afterAll past).current := by
  induction rs generalizing u with
  | nil => simp [published]
  | cons r rs ih =>
    rw [published, List.mem_cons, ih]
    constructor
    · rintro (rfl | ⟨past, future, rfl, rfl⟩)
      · exact ⟨[], r :: rs, rfl, rfl⟩
      · exact ⟨r :: past, future, rfl, rfl⟩
    · rintro ⟨past, future, hrs, rfl⟩
      cases past with
      | nil => exact .inl rfl
      | cons q past =>
        obtain ⟨rfl, rfl⟩ := List.cons.inj hrs
        exact .inr ⟨past, future, rfl, rfl⟩

/-- An edition stays published, whatever is registered later. -/
theorem mem_published_append {u : Vocabulary V} {rs : List (Registration V)} {e : Edition V}
    (h : e ∈ u.published rs) (ss : List (Registration V)) : e ∈ u.published (rs ++ ss) := by
  obtain ⟨past, future, rfl, rfl⟩ := mem_published.mp h
  exact mem_published.mpr ⟨past, future ++ ss, List.append_assoc _ _ _, rfl⟩

theorem current_mem_published (u : Vocabulary V) (rs : List (Registration V)) :
    (u.afterAll rs).current ∈ u.published rs :=
  mem_published.mpr ⟨rs, [], (List.append_nil rs).symm, rfl⟩

theorem consistent_of_mem_published {u : Vocabulary V} (hu : u.current.Consistent)
    {rs : List (Registration V)} {e : Edition V} (h : e ∈ u.published rs) : e.Consistent := by
  obtain ⟨past, future, -, rfl⟩ := mem_published.mp h
  rw [current_afterAll]
  exact hu.addAll _

/-- Each edition is a first part of every later one. -/
theorem published_pairwise (u : Vocabulary V) (rs : List (Registration V)) :
    (u.published rs).Pairwise fun d e => d.toList <+: e.toList := by
  induction rs generalizing u with
  | nil => exact List.pairwise_singleton _ _
  | cons r rs ih =>
    refine List.pairwise_cons.mpr ⟨fun e he => ?_, ih (u.after r)⟩
    obtain ⟨past, future, -, rfl⟩ := mem_published.mp he
    rw [current_afterAll, current_after, ← Edition.addAll_append]
    exact u.current.prefix_addAll _

end Vocabulary

end WorkTracking
