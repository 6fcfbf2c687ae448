import WorkTracking.Proofs.Repetitions
import WorkTracking.Vocabulary.Edition

/-!
How editions grow. A consistent edition holds distinct values, as many as its table knows, and the
ordinals are their places. Adding values keeps what is there as a first part, and leaves the
distinct values in the order in which they came first.
-/
namespace WorkTracking

namespace Edition

variable {V : Type} [DecidableEq V] [Hashable V]

theorem value?_eq (e : Edition V) (i : Nat) : e.value? i = e.toList[i]? := by
  simp [value?, toList]

theorem length_toList (e : Edition V) : e.toList.length = e.size := by
  simp [toList, size]

@[simp] theorem addAll_nil (e : Edition V) : e.addAll [] = e := rfl

namespace Consistent

variable {e : Edition V}

theorem mem_toList_iff (h : e.Consistent) {v : V} : v ∈ e.toList ↔ ∃ i, e.ordinal? v = some i := by
  rw [List.mem_iff_getElem?]
  exact exists_congr fun i => by rw [h v i, value?_eq]

theorem ordinal?_eq_none_iff (h : e.Consistent) {v : V} : e.ordinal? v = none ↔ v ∉ e.toList := by
  rw [h.mem_toList_iff, Option.eq_none_iff_forall_ne_some]
  exact not_exists.symm

theorem lt_size (h : e.Consistent) {v : V} {i : Nat} (hi : e.ordinal? v = some i) : i < e.size := by
  have := (h v i).mp hi
  rw [value?_eq] at this
  rw [← length_toList]
  exact (List.getElem?_eq_some_iff.mp this).1

theorem nodup_toList (h : e.Consistent) : e.toList.Nodup := by
  rw [List.nodup_iff_injective_getElem]
  intro i j hij
  have hplace (k : Fin e.toList.length) : e.ordinal? e.toList[k] = some k.val := by
    rw [h, value?_eq]
    exact List.getElem?_eq_getElem k.isLt
  have hi : e.ordinal? e.toList[i] = some i.val := hplace i
  have hj : e.ordinal? e.toList[i] = some j.val := by
    rw [← hplace j]
    exact congrArg e.ordinal? hij
  exact Fin.ext (Option.some.inj (hi.symm.trans hj))

/-- The table knows as many values as the edition holds. -/
theorem size_ordinals (h : e.Consistent) : e.ordinals.size = e.size := by
  rw [← Std.HashMap.length_keys, ← length_toList]
  apply List.Perm.length_eq
  rw [List.perm_ext_iff_of_nodup Std.HashMap.nodup_keys h.nodup_toList]
  intro v
  rw [Std.HashMap.mem_keys, h.mem_toList_iff, Std.HashMap.mem_iff_isSome_getElem?,
    Option.isSome_iff_exists]
  rfl

/-- The ordinals in use are those below the size, without gaps. -/
theorem exists_ordinal_iff (h : e.Consistent) (i : Nat) :
    (∃ v, e.ordinal? v = some i) ↔ i < e.size := by
  constructor
  · rintro ⟨v, hv⟩
    exact h.lt_size hv
  · intro hi
    rw [← length_toList] at hi
    exact ⟨e.toList[i], (h _ _).mpr (by rw [value?_eq]; exact List.getElem?_eq_getElem hi)⟩

theorem addAll (h : e.Consistent) (vs : List V) : (e.addAll vs).Consistent := by
  induction vs generalizing e with
  | nil => exact h
  | cons v vs ih => exact ih (h.add v)

theorem toList_add (h : e.Consistent) (v : V) :
    (e.add v).toList = if v ∈ e.toList then e.toList else e.toList ++ [v] := by
  unfold Edition.add
  by_cases hv : v ∈ e.toList
  · have known : (e.ordinal? v).isNone = false := by
      obtain ⟨i, hi⟩ := h.mem_toList_iff.mp hv
      simp [hi]
    simp [hv, known]
  · simp [hv, h.ordinal?_eq_none_iff.mpr hv]

theorem toList_addAll_of_eq (h : e.Consistent) {l : List V} (hl : e.toList = l.eraseDups)
    (vs : List V) : (e.addAll vs).toList = (l ++ vs).eraseDups := by
  induction vs generalizing e l with
  | nil => simp [Edition.addAll, hl]
  | cons v vs ih =>
    have hadd : (e.add v).toList = (l ++ [v]).eraseDups := by
      rw [h.toList_add, eraseDups_concat, hl]
      simp
    have := ih (h.add v) hadd
    rwa [List.append_assoc, List.singleton_append] at this

/-- After adding values there are the distinct ones of all, in the order of their first coming. -/
theorem toList_addAll (h : e.Consistent) (vs : List V) :
    (e.addAll vs).toList = (e.toList ++ vs).eraseDups :=
  h.toList_addAll_of_eq (eraseDups_of_nodup h.nodup_toList).symm vs

/-- A later edition keeps every ordinal of an earlier one. -/
theorem ordinal?_mono {d : Edition V} (hd : d.Consistent) (he : e.Consistent)
    (hp : d.toList <+: e.toList) {v : V} {i : Nat} (hi : d.ordinal? v = some i) :
    e.ordinal? v = some i := by
  have hv := (hd v i).mp hi
  rw [value?_eq] at hv
  apply (he v i).mpr
  rw [value?_eq]
  obtain ⟨more, hmore⟩ := hp
  rw [← hmore, List.getElem?_append_left (List.getElem?_eq_some_iff.mp hv).1, hv]

end Consistent

theorem prefix_add (e : Edition V) (v : V) : e.toList <+: (e.add v).toList := by
  unfold add
  split
  · rw [toList_push]
    exact List.prefix_append _ _
  · exact List.prefix_rfl

theorem prefix_addAll (e : Edition V) (vs : List V) : e.toList <+: (e.addAll vs).toList := by
  induction vs generalizing e with
  | nil => exact List.prefix_rfl
  | cons v vs ih => exact (e.prefix_add v).trans (ih (e.add v))

theorem add_of_known {e : Edition V} {v : V} {i : Nat} (h : e.ordinal? v = some i) :
    e.add v = e := by
  simp [add, h]

theorem add_of_new {e : Edition V} {v : V} (h : e.ordinal? v = none) : e.add v = e.push v := by
  simp [add, h]

theorem addAll_append (e : Edition V) (vs ws : List V) :
    e.addAll (vs ++ ws) = (e.addAll vs).addAll ws :=
  List.foldl_append

/-- Values known already add nothing. -/
theorem addAll_of_known {e : Edition V} {vs : List V} (h : ∀ v ∈ vs, ∃ i, e.ordinal? v = some i) :
    e.addAll vs = e := by
  induction vs with
  | nil => rfl
  | cons v vs ih =>
    obtain ⟨i, hi⟩ := h v (by simp)
    have hstep : e.addAll (v :: vs) = (e.add v).addAll vs := rfl
    rw [hstep, add_of_known hi]
    exact ih fun w hw => h w (by simp [hw])

theorem size_le_addAll (e : Edition V) (vs : List V) : e.size ≤ (e.addAll vs).size := by
  rw [← length_toList, ← length_toList]
  exact (e.prefix_addAll vs).length_le

theorem ordinal?_push_of_known {e : Edition V} {v w : V} (hv : e.ordinal? v = none) {i : Nat}
    (hw : e.ordinal? w = some i) : (e.push v).ordinal? w = some i := by
  have hne : v ≠ w := fun h => by simp [← h, hv] at hw
  rw [ordinal?_push, if_neg hne, hw]

/-- Whatever is added, a known value keeps its ordinal. -/
theorem ordinal?_addAll_of_known {e : Edition V} (vs : List V) {w : V} {i : Nat}
    (hw : e.ordinal? w = some i) : (e.addAll vs).ordinal? w = some i := by
  induction vs generalizing e with
  | nil => exact hw
  | cons v vs ih =>
    have hadd : (e.add v).ordinal? w = some i := by
      cases hv : e.ordinal? v with
      | some j => rwa [add_of_known hv]
      | none =>
        rw [add_of_new hv]
        exact ordinal?_push_of_known hv hw
    exact ih hadd

/-- An added value has an ordinal afterwards. -/
theorem exists_ordinal_addAll {e : Edition V} {vs : List V} {w : V} (hw : w ∈ vs) :
    ∃ i, (e.addAll vs).ordinal? w = some i := by
  induction vs generalizing e with
  | nil => simp at hw
  | cons v vs ih =>
    rcases List.mem_cons.mp hw with rfl | hw
    · cases hv : e.ordinal? w with
      | some i => exact ⟨i, ordinal?_addAll_of_known (w :: vs) hv⟩
      | none =>
        refine ⟨e.size, ordinal?_addAll_of_known vs ?_⟩
        rw [add_of_new hv, ordinal?_push, if_pos rfl]
    · exact ih hw

/-- The size stays the same just if nothing new was added. -/
theorem size_addAll_eq_iff (e : Edition V) (vs : List V) :
    (e.addAll vs).size = e.size ↔ ∀ v ∈ vs, ∃ i, e.ordinal? v = some i := by
  constructor
  · intro hsize
    induction vs generalizing e with
    | nil => simp
    | cons v vs ih =>
      have hstep : e.addAll (v :: vs) = (e.add v).addAll vs := rfl
      rw [hstep] at hsize
      cases hv : e.ordinal? v with
      | none =>
        have hle := (e.add v).size_le_addAll vs
        rw [hsize, add_of_new hv, size_push] at hle
        omega
      | some i =>
        rw [add_of_known hv] at hsize
        exact List.forall_mem_cons.mpr ⟨⟨i, hv⟩, ih e hsize⟩
  · intro h
    rw [addAll_of_known h]

end Edition

end WorkTracking
