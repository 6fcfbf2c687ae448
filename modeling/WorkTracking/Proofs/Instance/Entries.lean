import WorkTracking.Instance.Registry
import WorkTracking.Proofs.OrderedMap

/-!
The entries of a registry as a list, with instances told by their identities. Each operation puts
one entry in another state, at its place or at the end, and leaves the others.
-/
namespace WorkTracking

variable {K V : Type}

/-- A probe need only look among the entries under its own hash. -/
theorem Probe.find?_filter_hash (p : Probe) (l : List (Instance K × V)) :
    (l.filter fun e => hash e.1 == hash p).find? (fun e => p.finds e.1) =
      l.find? fun e => p.finds e.1 := by
  rw [List.find?_filter]
  congr 1
  funext e
  cases hfinds : p.finds e.1 with
  | false => simp
  | true => simp [Probe.hash_eq_of_finds hfinds]

namespace Instance

/-- The entries, with instances told by their identities. -/
def byIdentity (l : List (Instance K × V)) : List (Nat × V) := l.map fun e => (e.1.id, e.2)

theorem byIdentity_append (l l' : List (Instance K × V)) :
    byIdentity (l ++ l') = byIdentity l ++ byIdentity l' :=
  List.map_append

theorem any_byIdentity (k : Instance K) (l : List (Instance K × V)) :
    (byIdentity l).any (·.1 == k.id) = l.any (·.1 == k) :=
  List.any_map

theorem find?_byIdentity (k : Instance K) (l : List (Instance K × V)) :
    ((byIdentity l).find? (·.1 == k.id)).map Prod.snd = (l.find? (·.1 == k)).map Prod.snd := by
  unfold byIdentity
  rw [List.find?_map, Option.map_map]
  rfl

theorem lookup_byIdentity (k : Instance K) (l : List (Instance K × V)) :
    (byIdentity l).lookup k.id = (l.find? (·.1 == k)).map Prod.snd := by
  induction l with
  | nil => rfl
  | cons e l ih =>
    unfold byIdentity at ih ⊢
    rw [List.map_cons, List.lookup_cons, List.find?_cons, ih, Instance.beq_eq_id, BEq.comm]
    cases e.1.id == k.id <;> rfl

theorem eraseP_byIdentity (k : Instance K) (l : List (Instance K × V)) :
    (byIdentity l).eraseP (·.1 == k.id) = byIdentity (l.eraseP (·.1 == k)) :=
  List.eraseP_map

theorem write_byIdentity (k : Instance K) (v : V) (l : List (Instance K × V)) :
    OrderedMap.write k.id v (byIdentity l) = byIdentity (OrderedMap.write k v l) := by
  induction l with
  | nil => rfl
  | cons e l ih =>
    unfold byIdentity at ih ⊢
    rw [List.map_cons, OrderedMap.write, OrderedMap.write, ih, Instance.beq_eq_id]
    split <;> rfl

theorem map_snd_byIdentity (l : List (Instance K × V)) :
    (byIdentity l).map Prod.snd = l.map Prod.snd := by
  simp [byIdentity]

theorem keyed_byIdentity {l : List (Instance K × V)} :
    OrderedMap.Keyed (byIdentity l) ↔ OrderedMap.Keyed l := by
  simp [OrderedMap.Keyed, byIdentity, List.pairwise_map, Instance.beq_eq_id]

theorem nodup_ids_of_keyed {l : List (Instance K × V)} (h : OrderedMap.Keyed l) :
    (l.map (·.1.id)).Nodup := by
  unfold OrderedMap.Keyed at h
  rw [List.pairwise_map] at h
  rw [List.nodup_iff_pairwise_ne, List.pairwise_map]
  exact h.imp fun hne hid => by simp [Instance.beq_eq_id, hid] at hne

/-- In whatever order the entries are, the same is found. -/
theorem find?_eq_of_perm {l l' : List (Instance K × V)} (h : OrderedMap.Keyed (byIdentity l))
    (hp : (byIdentity l).Perm (byIdentity l')) (k : Instance K) :
    (l.find? (·.1 == k)).map Prod.snd = (l'.find? (·.1 == k)).map Prod.snd := by
  rw [← find?_byIdentity, h.find?_perm hp, find?_byIdentity]

theorem any_eq_of_perm {l l' : List (Instance K × V)}
    (hp : (byIdentity l).Perm (byIdentity l')) (k : Instance K) :
    l.any (·.1 == k) = l'.any (·.1 == k) := by
  rw [← any_byIdentity, hp.any_eq, any_byIdentity]

end Instance

namespace Registry

open Instance (byIdentity)

theorem keyed_toList (r : Registry K V) : OrderedMap.Keyed r.toList := r.entries.keyed_entries

theorem keyed_byIdentity_toList (r : Registry K V) : OrderedMap.Keyed (byIdentity r.toList) :=
  Instance.keyed_byIdentity.mpr r.keyed_toList

theorem nodup_ids (r : Registry K V) : (r.toList.map (·.1.id)).Nodup :=
  Instance.nodup_ids_of_keyed r.keyed_toList

theorem get?_eq_find? (r : Registry K V) (k : Instance K) :
    r.get? k = (r.toList.find? (·.1 == k)).map Prod.snd := rfl

theorem contains_eq_any (r : Registry K V) (k : Instance K) :
    r.contains k = r.toList.any (·.1 == k) := rfl

theorem contains_eq_isSome (r : Registry K V) (k : Instance K) :
    r.contains k = (r.get? k).isSome :=
  r.entries.contains_eq_isSome k

theorem get?_of_absent {r : Registry K V} {k : Instance K} (h : r.contains k = false) :
    r.get? k = none := by
  rwa [contains_eq_isSome, Option.isSome_eq_false_iff, Option.isNone_iff_eq_none] at h

theorem previous_erase (r : Registry K V) (k : Instance K) : (r.erase k).previous = r.get? k := by
  unfold erase
  split <;> simp [*]

theorem toList_erase (r : Registry K V) (k : Instance K) :
    (r.erase k).registry.toList = r.toList.eraseP (·.1 == k) := by
  unfold erase
  split
  next => rfl
  next h =>
    have habsent : ∀ e ∈ r.toList, ¬ (e.1 == k) = true := by
      rw [← List.find?_eq_none, ← Option.map_eq_none_iff (f := Prod.snd)]
      exact h
    exact (List.eraseP_of_forall_not habsent).symm

theorem toList_insert (r : Registry K V) (k : Instance K) (v : V) :
    (r.insert k v).registry.toList =
      if r.contains k then r.toList.map fun e => if e.1 == k then (e.1, v) else e
      else r.toList ++ [(k, v)] := by
  cases h : r.contains k with
  | true => exact r.keyed_toList.write_of_present h v
  | false => exact OrderedMap.Keyed.write_of_absent h v

theorem toList_insert_of_absent {r : Registry K V} {k : Instance K} (h : r.contains k = false)
    (v : V) : (r.insert k v).registry.toList = r.toList ++ [(k, v)] := by
  rw [toList_insert, h]
  rfl

/-- Entries of different instances come in one after another. -/
theorem toList_insertAll {r : Registry K V} {l : List (Instance K × V)}
    (h : OrderedMap.Keyed (r.toList ++ l)) : (r.insertAll l).toList = r.toList ++ l := by
  induction l generalizing r with
  | nil => exact (List.append_nil _).symm
  | cons e l ih =>
    have hlist : (r.insert e.1 e.2).registry.toList = r.toList ++ [e] :=
      toList_insert_of_absent (OrderedMap.Keyed.any_of_append h) e.2
    rw [List.append_cons, ← hlist] at h
    rw [List.append_cons, ← hlist]
    exact ih h

theorem toList_ofList {l : List (Instance K × V)} (h : OrderedMap.Keyed l) (id : Nat) :
    (ofList id l).toList = l :=
  toList_insertAll h

/-- An opened entry gets its new value in its place. -/
theorem toList_modify (r : Registry K V) (k : Instance K) (change : V → V) :
    (r.modify k change).registry.toList =
      r.toList.map fun e => if e.1 == k then (e.1, change e.2) else e := by
  unfold modify
  split
  next v hv =>
    obtain ⟨e, he, rfl⟩ := Option.map_eq_some_iff.mp ((r.get?_eq_find? k).symm.trans hv)
    obtain ⟨hmem, hkey⟩ := r.keyed_toList.find?_eq_some_iff.mp he
    have hwritten := r.keyed_toList.write_of_present (List.any_eq_true.mpr ⟨e, hmem, hkey⟩)
      (change e.2)
    refine hwritten.trans (List.map_congr_left fun d hd => ?_)
    split
    next hdk =>
      have hone : d = e := r.keyed_toList.eq_of_beq hd hmem (BEq.trans hdk (BEq.symm hkey))
      rw [hone]
    next => rfl
  next hnone =>
    have hkept : ∀ e ∈ r.toList, (if e.1 == k then (e.1, change e.2) else e) = e := by
      intro e he
      rw [get?_eq_find?, Option.map_eq_none_iff, List.find?_eq_none] at hnone
      exact if_neg (hnone e he)
    rw [List.map_congr_left hkept, List.map_id']

theorem previous_modify (r : Registry K V) (k : Instance K) (change : V → V) :
    (r.modify k change).previous = r.get? k := by
  unfold modify
  split <;> simp [*]

end Registry

end WorkTracking
