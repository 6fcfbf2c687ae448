import Mathlib.Data.Finset.Card
import Mathlib.Data.Finset.Dedup
import Mathlib.Data.List.Permutation
import WorkTracking.MemberSet.View
import WorkTracking.Proofs.Bitmap.Positions
import WorkTracking.Proofs.Vocabulary.Registration

/-!
Which values a set contains. A set that is grounded in its vocabulary holds ordinals of known values
only, so that its list, its size and its test for emptiness all describe one set of values. The
vocabulary may grow as it likes without any effect on that set; each operation on a working set has
the effect of its namesake on plain sets.
-/
namespace WorkTracking

variable {V : Type} [DecidableEq V] [Hashable V]

/-- Every position is the ordinal of a value of `u`, and what a frozen set keeps beside its bitmap
was computed from it. -/
structure MemberSet.Grounded (digest : WordDigest) (u : Vocabulary V) (s : MemberSet) : Prop where
  bounded : ∀ p, s.members.contains p = true → p < u.size
  size_eq : s.size = s.members.count
  fingerprint_eq : s.fingerprint digest = s.members.fingerprint digest

theorem MemberSet.grounded_working {digest : WordDigest} {u : Vocabulary V} {s : WorkingSet}
    (h : ∀ p, s.members.contains p = true → p < u.size) :
    (MemberSet.working s).Grounded digest u :=
  ⟨h, rfl, rfl⟩

/-! ### Traversals -/

namespace Traversal

theorem drain_of_next_some {t rest : Traversal V} {v : V} (h : t.next = (some v, rest)) :
    t.drain.1 = v :: rest.drain.1 := by
  rw [drain]
  split
  next w rest' hw =>
    obtain ⟨rfl, rfl⟩ : w = v ∧ rest' = rest := by
      rw [h] at hw
      cases hw
      exact ⟨rfl, rfl⟩
    rfl
  next rest' hw =>
    rw [h] at hw
    cases hw

theorem drain_of_next_none {t rest : Traversal V} (h : t.next = (none, rest)) :
    t.drain.1 = [] := by
  rw [drain]
  split
  next w rest' hw =>
    rw [h] at hw
    cases hw
  next => rfl

/-- A traversal comes to the value of each position, if all positions have one. -/
theorem drain_eq_filterMap {e : Edition V} {b : Bitmap}
    (bounded : ∀ p, b.contains p = true → p < e.size) (start : Nat) :
    (Traversal.mk e b (b.next? start)).drain.1 = (b.positionsFrom start).filterMap e.value? := by
  fun_induction Bitmap.positionsFrom b start with
  | case1 start found =>
    have hnext : (Traversal.mk e b (b.next? start)).next = (none, ⟨e, b, none⟩) := by
      simp [next, found]
    rw [drain_of_next_none hnext]
    rfl
  | case2 start p found ih =>
    have hp : b.contains p = true := by
      have h := b.next?_isFirst start
      rw [found] at h
      exact h.2.1
    obtain ⟨v, hv⟩ : ∃ v, e.value? p = some v := by
      have := bounded p hp
      exact ⟨e.values[p], Array.getElem?_eq_getElem this⟩
    have hnext : (Traversal.mk e b (b.next? start)).next =
        (some v, ⟨e, b, b.next? (p + 1)⟩) := by
      simp [next, found, hv]
    rw [drain_of_next_some hnext, ih, List.filterMap_cons_some hv]

end Traversal

/-! ### The values of a set -/

namespace SetView

variable {s : SetView V} {digest : WordDigest}

theorem contains_eq_true_iff {v : V} :
    s.contains v = true ↔ ∃ i, s.vocabulary.ordinal? v = some i ∧ s.members.contains i = true := by
  simp [contains, Option.any_eq_true]

theorem toList_eq_filterMap (hg : s.set.Grounded digest s.vocabulary) :
    s.toList = s.members.positions.filterMap s.vocabulary.current.value? :=
  Traversal.drain_eq_filterMap hg.bounded 0

/-- The list of a set holds exactly the values that the set contains. -/
theorem mem_toList_iff (hc : s.vocabulary.current.Consistent)
    (hg : s.set.Grounded digest s.vocabulary) {v : V} : v ∈ s.toList ↔ s.contains v = true := by
  rw [toList_eq_filterMap hg, List.mem_filterMap, contains_eq_true_iff]
  constructor
  · rintro ⟨p, hp, hv⟩
    exact ⟨p, (hc v p).mpr hv, Bitmap.mem_positions.mp hp⟩
  · rintro ⟨p, hv, hp⟩
    exact ⟨p, Bitmap.mem_positions.mpr hp, (hc v p).mp hv⟩

theorem nodup_toList (hc : s.vocabulary.current.Consistent)
    (hg : s.set.Grounded digest s.vocabulary) : s.toList.Nodup := by
  rw [toList_eq_filterMap hg]
  apply List.Nodup.filterMap _ s.members.nodup_positions
  intro p q v hp hq
  have h₁ := (hc v p).mpr hp
  have h₂ := (hc v q).mpr hq
  exact Option.some.inj (h₁.symm.trans h₂)

theorem length_toList (hg : s.set.Grounded digest s.vocabulary) : s.toList.length = s.size := by
  have hall : ∀ p ∈ s.members.positions, (s.vocabulary.current.value? p).isSome = true := by
    intro p hp
    have := hg.bounded p (Bitmap.mem_positions.mp hp)
    simp only [Edition.value?, isSome_getElem?]
    exact this
  rw [toList_eq_filterMap hg, List.filterMap_length_eq_length.mpr hall,
    ← Bitmap.count_eq_length_positions]
  exact hg.size_eq.symm

/-- The size of a set is the number of its values. -/
theorem size_eq_card (hc : s.vocabulary.current.Consistent)
    (hg : s.set.Grounded digest s.vocabulary) {m : Finset V}
    (hm : ∀ v, v ∈ m ↔ s.contains v = true) : s.size = m.card := by
  have heq : m = s.toList.toFinset := by
    ext v
    rw [hm, List.mem_toFinset, mem_toList_iff hc hg]
  rw [heq, List.toFinset_card_of_nodup (nodup_toList hc hg), length_toList hg]

theorem isEmpty_eq_size (hg : s.set.Grounded digest s.vocabulary) :
    s.isEmpty = (s.size == 0) := by
  obtain ⟨u, set⟩ := s
  cases set with
  | working set => exact Bitmap.isEmpty_eq_count _
  | frozen set => rfl

/-- The set is grounded in its vocabulary, and the vocabulary is consistent. -/
structure Reliable (digest : WordDigest) (s : SetView V) : Prop where
  consistent : s.vocabulary.current.Consistent
  grounded : s.set.Grounded digest s.vocabulary

end SetView

/-! ### Growth of the vocabulary -/

theorem MemberSet.Grounded.afterAll {digest : WordDigest} {u : Vocabulary V} {s : MemberSet}
    (h : s.Grounded digest u) (rs : List (Registration V)) : s.Grounded digest (u.afterAll rs) :=
  ⟨fun p hp => Nat.lt_of_lt_of_le (h.bounded p hp) (u.size_le_afterAll rs), h.size_eq,
    h.fingerprint_eq⟩

/-- A value that comes later has no position in a set that is older. -/
theorem SetView.contains_afterAll {digest : WordDigest} {u : Vocabulary V} {s : MemberSet}
    (hu : u.current.Consistent) (hs : s.Grounded digest u) (rs : List (Registration V)) (v : V) :
    (SetView.mk (u.afterAll rs) s).contains v = (SetView.mk u s).contains v := by
  have hu' := u.consistent_afterAll hu rs
  rw [Bool.eq_iff_iff, contains_eq_true_iff, contains_eq_true_iff]
  apply exists_congr
  intro i
  constructor
  · rintro ⟨hi, hp⟩
    obtain ⟨w, hw⟩ := (hu.exists_ordinal_iff i).mpr (hs.bounded i hp)
    have hw' := Vocabulary.ordinal?_afterAll_of_known rs hw
    have hsame : w = v :=
      Option.some.inj (((hu' w i).mp hw').symm.trans ((hu' v i).mp hi))
    exact ⟨hsame ▸ hw, hp⟩
  · rintro ⟨hi, hp⟩
    exact ⟨Vocabulary.ordinal?_afterAll_of_known rs hi, hp⟩

/-- What is registered later does not show in a list of members. -/
theorem SetView.toList_afterAll {digest : WordDigest} {u : Vocabulary V} {s : MemberSet}
    (hu : u.current.Consistent) (hs : s.Grounded digest u) (rs : List (Registration V)) :
    (SetView.mk (u.afterAll rs) s).toList = (SetView.mk u s).toList := by
  rw [toList_eq_filterMap (s := ⟨u.afterAll rs, s⟩) (hs.afterAll rs),
    toList_eq_filterMap (s := ⟨u, s⟩) hs]
  apply List.filterMap_congr
  intro p hp
  exact Vocabulary.value?_afterAll hu rs (hs.bounded p (Bitmap.mem_positions.mp hp))

/-! ### Changes of a working set -/

namespace WorkingSet

variable {u : Vocabulary V} {s : WorkingSet} {digest : WordDigest}

/-- The values that a working set contains over `u`. -/
def has (u : Vocabulary V) (s : WorkingSet) (v : V) : Bool :=
  (SetView.mk u (.working s)).contains v

theorem has_eq_true_iff {v : V} :
    s.has u v = true ↔ ∃ i, u.ordinal? v = some i ∧ s.members.contains i = true :=
  SetView.contains_eq_true_iff

theorem has_afterAll (hu : u.current.Consistent) (hs : (MemberSet.working s).Grounded digest u)
    (rs : List (Registration V)) (v : V) : s.has (u.afterAll rs) v = s.has u v :=
  SetView.contains_afterAll hu hs rs v

theorem has_emptyOver (v : V) : (emptyOver u).has u v = false := by
  rw [Bool.eq_false_iff]
  intro h
  obtain ⟨i, -, hi⟩ := has_eq_true_iff.mp h
  simp [emptyOver] at hi

theorem has_clear (v : V) : s.clear.has u v = false := by
  rw [Bool.eq_false_iff]
  intro h
  obtain ⟨i, -, hi⟩ := has_eq_true_iff.mp h
  simp [clear] at hi

theorem has_erase (hu : u.current.Consistent) (v w : V) :
    (s.erase u v).set.has u w = (decide (w ≠ v) && s.has u w) := by
  unfold erase
  split
  next hv =>
    by_cases h : w = v
    · subst h
      simp [has, SetView.contains, hv]
    · simp [h]
  next i hi =>
    have hne {j : Nat} (hj : u.ordinal? w = some j) : (j != i) = decide (w ≠ v) := by
      rw [Bool.eq_iff_iff, bne_iff_ne, decide_eq_true_iff, not_iff_not]
      constructor
      · rintro rfl
        exact Option.some.inj (((hu w j).mp hj).symm.trans ((hu v j).mp hi))
      · rintro rfl
        exact Option.some.inj (hj.symm.trans hi)
    cases hj : u.ordinal? w with
    | none => simp [has, SetView.contains, hj]
    | some j =>
      simp only [has, SetView.contains, hj, Option.any_some, SetView.members, MemberSet.members,
        Bitmap.contains_erase, hne hj]

theorem changed_erase (v : V) : (s.erase u v).changed = s.has u v := by
  unfold erase
  split
  next hv => simp [has, SetView.contains, hv]
  next i hi =>
    simp [has, SetView.contains, hi, Bitmap.changed_erase, SetView.members, MemberSet.members]

theorem vocabulary_erase (v : V) : (s.erase u v).set.vocabulary = s.vocabulary := by
  unfold erase
  split <;> rfl

theorem grounded_erase (hs : (MemberSet.working s).Grounded digest u) (v : V) :
    (MemberSet.working (s.erase u v).set).Grounded digest u := by
  unfold erase
  split
  next => exact hs
  next i _ =>
    apply MemberSet.grounded_working
    intro p hp
    simp only [Bitmap.contains_erase, Bool.and_eq_true] at hp
    exact hs.bounded p hp.2

theorem insert_vocabulary (v : V) : (s.insert u v).vocabulary = u.after (.single v) := rfl

theorem has_insert (hu : u.current.Consistent) (hs : (MemberSet.working s).Grounded digest u)
    (v w : V) : (s.insert u v).set.has (u.after (.single v)) w = (decide (w = v) || s.has u w) := by
  have hu' := u.consistent_afterAll hu [.single v]
  have hv : (u.after (.single v)).ordinal? v = some (u.register v).ordinal := u.ordinal?_register v
  have hold : s.has (u.after (.single v)) w = s.has u w := has_afterAll hu hs [.single v] w
  rw [← hold]
  cases hw : (u.after (.single v)).ordinal? w with
  | none =>
    have hne : w ≠ v := fun h => by simp [h, hv] at hw
    simp [has, SetView.contains, hw, hne]
  | some j =>
    have heq : (j == (u.register v).ordinal) = decide (w = v) := by
      rw [Bool.eq_iff_iff, beq_iff_eq, decide_eq_true_iff]
      constructor
      · rintro rfl
        exact Option.some.inj (((hu' w _).mp hw).symm.trans ((hu' v _).mp hv))
      · rintro rfl
        exact Option.some.inj (hw.symm.trans hv)
    simp only [has, SetView.contains, hw, Option.any_some, SetView.members, MemberSet.members,
      insert, Bitmap.contains_insert, heq]

theorem changed_insert (hu : u.current.Consistent) (hs : (MemberSet.working s).Grounded digest u)
    (v : V) : (s.insert u v).changed = !s.has u v := by
  have hv : (u.after (.single v)).ordinal? v = some (u.register v).ordinal := u.ordinal?_register v
  rw [← has_afterAll hu hs [.single v] v]
  change (s.members.insert (u.register v).ordinal).changed = !s.has (u.after (.single v)) v
  rw [Bitmap.changed_insert, has, SetView.contains, hv]
  rfl

theorem grounded_insert (hu : u.current.Consistent)
    (hs : (MemberSet.working s).Grounded digest u) (v : V) :
    (MemberSet.working (s.insert u v).set).Grounded digest (u.after (.single v)) := by
  have hu' := u.consistent_afterAll hu [.single v]
  apply MemberSet.grounded_working
  intro p hp
  simp only [insert, Bitmap.contains_insert, Bool.or_eq_true, beq_iff_eq] at hp
  rcases hp with rfl | hp
  · exact hu'.lt_size (u.ordinal?_register v)
  · exact (hs.afterAll [.single v]).bounded p hp

/-- What adding a list of values does, to the set and to the vocabulary. -/
theorem insertAll_spec (hu : u.current.Consistent) (hs : (MemberSet.working s).Grounded digest u)
    (vs : List V) :
    (s.insertAll u vs).vocabulary = u.afterAll (vs.map .single) ∧
      (s.insertAll u vs).set.vocabulary = s.vocabulary ∧
      (MemberSet.working (s.insertAll u vs).set).Grounded digest (s.insertAll u vs).vocabulary ∧
      (∀ w, (s.insertAll u vs).set.has (s.insertAll u vs).vocabulary w =
        (decide (w ∈ vs) || s.has u w)) ∧
      (s.insertAll u vs).changed = vs.any fun v => !s.has u v := by
  induction vs generalizing u s with
  | nil => exact ⟨rfl, rfl, hs, by simp [insertAll], rfl⟩
  | cons v vs ih =>
    have hu' : (s.insert u v).vocabulary.current.Consistent := u.consistent_afterAll hu [.single v]
    obtain ⟨hvoc, hset, hground, hhas, hchanged⟩ := ih hu' (grounded_insert hu hs v)
    refine ⟨hvoc, hset, hground, fun w => ?_, ?_⟩
    · rw [insertAll, hhas w, insert_vocabulary, has_insert hu hs]
      by_cases h : w = v <;> simp [h]
    · change ((s.insert u v).changed || _) = _
      rw [hchanged, changed_insert hu hs, insert_vocabulary, List.any_cons]
      simp only [has_insert hu hs]
      cases hv : s.has u v with
      | false => rfl
      | true =>
        rw [Bool.not_true, Bool.false_or, Bool.false_or]
        congr 1
        funext w
        by_cases h : w = v
        · simp [h, hv]
        · simp [h]

theorem insertAll_singleton (v : V) : s.insertAll u [v] = s.insert u v := by
  simp [insertAll]

theorem grounded_freeze (hs : (MemberSet.working s).Grounded digest u) :
    (MemberSet.frozen (s.freeze digest)).Grounded digest u :=
  ⟨hs.bounded, rfl, rfl⟩

theorem grounded_clear : (MemberSet.working s.clear).Grounded digest u :=
  MemberSet.grounded_working fun p hp => by simp [clear] at hp

theorem grounded_emptyOver : (MemberSet.working (emptyOver u)).Grounded digest u :=
  MemberSet.grounded_working fun p hp => by simp [emptyOver] at hp

end WorkingSet

end WorkTracking
