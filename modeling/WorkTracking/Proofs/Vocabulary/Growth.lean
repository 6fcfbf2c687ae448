import Mathlib.Data.List.Induction
import WorkTracking.Proofs.Vocabulary.Batches
import WorkTracking.Proofs.Vocabulary.Pins

/-!
Notices of growth as a record of sizes. Read one after another, from the size before the first of
them, each notice fits the size that the earlier ones have led to, and says the next. A single
registration numbers its value by that size; a batch counts what it brought in under one lock,
whatever its producer registered and reported before the lock was taken.
-/
namespace WorkTracking

/-- The size that a notice tells, if it is one that a vocabulary with `n` values could give. -/
def Log.Notice.sizeAfter? (n : Nat) : Log.Notice → Option Nat
  | ⟨.trace, "universe.grow", [("index", .number index), ("size", .number size)]⟩ =>
    if index = n ∧ size = index + 1 then some size else none
  | ⟨.trace, "universe.extend", [("added", .number added), ("size", .number size)]⟩ =>
    if 1 ≤ added ∧ size = n + added then some size else none
  | _ => none

namespace Growth

def size : Growth → Nat
  | single _ size | batch _ size => size

/-- The size to which notices lead that are read in order from the size `n`. -/
def replay (n : Nat) (gs : List Growth) : Option Nat :=
  (gs.map notice).foldlM Log.Notice.sizeAfter? n

/-- What is reported when `k` values come to `n` others one after another. -/
def announced (n k : Nat) : List Growth := (List.range' n k).map fun i => .single i (i + 1)

/-- What is reported when `k` values come to `n` others at once. -/
def summed (n k : Nat) : List Growth := if k = 0 then [] else [.batch k (n + k)]

@[simp] theorem announced_zero (n : Nat) : announced n 0 = [] := rfl

@[simp] theorem announced_one (n : Nat) : announced n 1 = [.single n (n + 1)] := rfl

@[simp] theorem summed_zero (n : Nat) : summed n 0 = [] := rfl

theorem announced_append (n j k : Nat) :
    announced n j ++ announced (n + j) k = announced n (j + k) := by
  rw [announced, announced, announced, ← List.map_append, List.range'_append_1]

/-! ### Reading notices -/

theorem sizeAfter?_single (n i s : Nat) :
    (single i s).notice.sizeAfter? n = if i = n ∧ s = i + 1 then some s else none := rfl

theorem sizeAfter?_batch (n k s : Nat) :
    (batch k s).notice.sizeAfter? n = if 1 ≤ k ∧ s = n + k then some s else none := rfl

/-- A notice that is accepted tells its own size, which is larger than the one before. -/
theorem of_sizeAfter?_eq_some {g : Growth} {n m : Nat} (h : g.notice.sizeAfter? n = some m) :
    g.size = m ∧ n < m := by
  cases g with
  | single i s =>
    rw [sizeAfter?_single, Option.ite_none_right_eq_some] at h
    obtain ⟨⟨rfl, rfl⟩, hm⟩ := h
    cases hm
    exact ⟨rfl, Nat.lt_succ_self i⟩
  | batch k s =>
    rw [sizeAfter?_batch, Option.ite_none_right_eq_some] at h
    obtain ⟨⟨hk, rfl⟩, hm⟩ := h
    cases hm
    exact ⟨rfl, by omega⟩

@[simp] theorem replay_nil (n : Nat) : replay n [] = some n := rfl

theorem replay_cons (n : Nat) (g : Growth) (gs : List Growth) :
    replay n (g :: gs) = (g.notice.sizeAfter? n).bind (replay · gs) := by
  rw [replay, List.map_cons, List.foldlM_cons]
  rfl

theorem replay_append (n : Nat) (gs hs : List Growth) :
    replay n (gs ++ hs) = (replay n gs).bind (replay · hs) := by
  rw [replay, List.map_append, List.foldlM_append]
  rfl

theorem replay_announced (n k : Nat) : replay n (announced n k) = some (n + k) := by
  induction k generalizing n with
  | zero => rfl
  | succ k ih =>
    have hsplit : announced n (k + 1) = .single n (n + 1) :: announced (n + 1) k := rfl
    rw [hsplit, replay_cons, sizeAfter?_single, if_pos ⟨rfl, rfl⟩, Option.bind_some, ih]
    congr 1
    omega

theorem replay_summed (n k : Nat) : replay n (summed n k) = some (n + k) := by
  unfold summed
  split
  next hk => rw [hk, replay_nil, Nat.add_zero]
  next hk =>
    rw [replay_cons, sizeAfter?_batch, if_pos ⟨Nat.one_le_iff_ne_zero.mpr hk, rfl⟩,
      Option.bind_some, replay_nil]

/-- The last notice tells the size in the end. Without any, that is the one at the start. -/
theorem getLast?_of_replay {n m : Nat} {gs : List Growth} (h : replay n gs = some m) :
    gs.getLast?.elim n size = m := by
  induction gs using List.reverseRecOn with
  | nil => exact Option.some.inj h
  | append_singleton gs g ih =>
    rw [replay_append] at h
    obtain ⟨k, -, hlast⟩ := Option.bind_eq_some_iff.mp h
    rw [replay_cons] at hlast
    obtain ⟨m', hg, hm⟩ := Option.bind_eq_some_iff.mp hlast
    cases hm
    rw [List.getLast?_concat]
    exact (of_sizeAfter?_eq_some hg).1

theorem le_of_replay {n m : Nat} {gs : List Growth} (h : replay n gs = some m) : n ≤ m := by
  induction gs generalizing n with
  | nil => exact Nat.le_of_eq (Option.some.inj h)
  | cons g gs ih =>
    rw [replay_cons] at h
    obtain ⟨k, hg, hrest⟩ := Option.bind_eq_some_iff.mp h
    exact Nat.le_of_lt (Nat.lt_of_lt_of_le (of_sizeAfter?_eq_some hg).2 (ih hrest))

/-- No notice goes without growth. -/
theorem eq_nil_iff_of_replay {n m : Nat} {gs : List Growth} (h : replay n gs = some m) :
    gs = [] ↔ m = n := by
  constructor
  · rintro rfl
    exact (Option.some.inj h).symm
  · rintro rfl
    cases gs with
    | nil => rfl
    | cons g gs =>
      rw [replay_cons] at h
      obtain ⟨k, hg, hrest⟩ := Option.bind_eq_some_iff.mp h
      have hlt := (of_sizeAfter?_eq_some hg).2
      have hle := le_of_replay hrest
      omega

end Growth

namespace Vocabulary

open Growth

variable {V : Type} [DecidableEq V] [Hashable V]

/-! ### What a call reports -/

theorem size_le_after (u : Vocabulary V) (r : Registration V) : u.size ≤ (u.after r).size :=
  u.size_le_afterAll [r]

theorem growth_single (u : Vocabulary V) (v : V) :
    (u.serve (.single v)).growth = announced u.size ((u.after (.single v)).size - u.size) := by
  simp only [after, serve, register_eq_settle]
  unfold settle
  cases h : u.ordinal? v with
  | some i => simp
  | none => simp [publish, size]

theorem growth_batch (u : Vocabulary V) (vs : List V) :
    (u.serve (.batch vs)).growth = summed u.size ((u.after (.batch vs)).size - u.size) := by
  have hle : u.size ≤ (u.current.addAll vs).size := u.current.size_le_addAll vs
  simp only [after, serve, registerAll]
  split
  next => simp
  next hne =>
    have hadded : (u.current.addAll vs).size - u.size ≠ 0 := by omega
    have hsize : u.size + ((u.current.addAll vs).size - u.size) = (u.current.addAll vs).size := by
      omega
    have hnext : (u.publish fun _ => u.current.addAll vs).size = (u.current.addAll vs).size := rfl
    rw [hnext, summed, if_neg hadded, hsize]

theorem replay_serve (u : Vocabulary V) (r : Registration V) :
    replay u.size (u.serve r).growth = some (u.after r).size := by
  have hle := u.size_le_after r
  cases r with
  | single v => rw [growth_single, replay_announced, Nat.add_sub_cancel' hle]
  | batch vs => rw [growth_batch, replay_summed, Nat.add_sub_cancel' hle]

/-! ### Calls one after another -/

theorem growth_serveAll_cons (u : Vocabulary V) (r : Registration V) (rs : List (Registration V)) :
    (u.serveAll (r :: rs)).growth = (u.serve r).growth ++ ((u.after r).serveAll rs).growth := rfl

theorem serveAll_singleton_toGrown (u : Vocabulary V) (r : Registration V) :
    (u.serveAll [r]).toGrown = (u.serve r).toGrown :=
  congrArg (Grown.mk _) (u.growth_serveAll_singleton r)

/-- Whatever calls are made, their notices replay the size. -/
theorem replay_serveAll (u : Vocabulary V) (rs : List (Registration V)) :
    replay u.size (u.serveAll rs).growth = some (u.afterAll rs).size := by
  induction rs generalizing u with
  | nil => rfl
  | cons r rs ih =>
    rw [growth_serveAll_cons, replay_append, replay_serve, Option.bind_some, ih, afterAll_cons]

/-- Single registrations report each value that is new, with its ordinal. -/
theorem growth_serveAll_singles (u : Vocabulary V) (vs : List V) :
    (u.serveAll (vs.map .single)).growth =
      announced u.size ((u.afterAll (vs.map .single)).size - u.size) := by
  induction vs generalizing u with
  | nil => simp [serveAll]
  | cons v vs ih =>
    have hfirst := u.size_le_after (.single v)
    have hrest := (u.after (.single v)).size_le_afterAll (vs.map .single)
    have hmiddle : u.size + ((u.after (.single v)).size - u.size) = (u.after (.single v)).size := by
      omega
    have hnext := announced_append u.size ((u.after (.single v)).size - u.size)
      (((u.after (.single v)).afterAll (vs.map .single)).size - (u.after (.single v)).size)
    rw [hmiddle] at hnext
    rw [List.map_cons, growth_serveAll_cons, growth_single, ih, hnext, afterAll_cons]
    congr 1
    omega

/-- The values that `later` has and `u` had not. -/
def newcomers (u later : Vocabulary V) : List V := later.toList.drop u.size

theorem length_newcomers (u later : Vocabulary V) :
    (u.newcomers later).length = later.size - u.size := by
  rw [newcomers, List.length_drop, toList, Edition.length_toList, size, size]

theorem toList_afterAll_eq (u : Vocabulary V) (rs : List (Registration V)) :
    (u.afterAll rs).toList = u.toList ++ u.newcomers (u.afterAll rs) := by
  have hprefix : u.toList <+: (u.afterAll rs).toList := by
    rw [toList, toList, current_afterAll]
    exact u.current.prefix_addAll _
  obtain ⟨fresh, hfresh⟩ := hprefix
  have hlength : u.toList.length = u.size := u.current.length_toList
  rw [newcomers, ← hfresh, ← hlength, List.drop_left]

theorem nodup_newcomers {u : Vocabulary V} (hu : u.current.Consistent)
    (rs : List (Registration V)) : (u.newcomers (u.afterAll rs)).Nodup :=
  (consistent_afterAll hu rs).nodup_toList.sublist (List.drop_sublist _ _)

theorem mem_newcomers_iff {u : Vocabulary V} (hu : u.current.Consistent)
    (rs : List (Registration V)) {v : V} :
    v ∈ u.newcomers (u.afterAll rs) ↔ v ∈ (u.afterAll rs).toList ∧ v ∉ u.toList := by
  have hnodup := (consistent_afterAll hu rs).nodup_toList
  rw [← toList, toList_afterAll_eq, List.nodup_append] at hnodup
  rw [toList_afterAll_eq, List.mem_append]
  constructor
  · exact fun hv => ⟨.inr hv, fun hold => hnodup.2.2 v hold v hv rfl⟩
  · rintro ⟨hold | hv, hnew⟩
    · exact absurd hold hnew
    · exact hv

/-! ### Producers -/

/-- The notice of a batch, if there is one, follows those of the calls that its producer makes. -/
theorem growth_registerDrawn (u : Vocabulary V) (last : List (Registration V))
    (steps : List (List (Registration V) × V)) :
    let own := steps.flatMap Prod.fst ++ last
    let middle := u.afterAll own
    (u.registerDrawn last steps).growth = (u.serveAll own).growth ++
      summed middle.size ((u.registerDrawn last steps).vocabulary.size - middle.size) := by
  intro own middle
  rw [registerDrawn_eq, serveAll_append, growth_serveAll_singleton, growth_batch]
  rfl

end Vocabulary

end WorkTracking
