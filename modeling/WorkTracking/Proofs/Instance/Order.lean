import WorkTracking.Proofs.Identities
import WorkTracking.Proofs.Instance.Promotion
import WorkTracking.Proofs.Repetitions

/-!
The order in which slot tables are gone through. Two instances keep their order as long as both are
there, whatever is done. A new one takes the first free slot, so it comes right behind the entries
before that slot, and when nothing has been removed it comes last.
-/
namespace WorkTracking

open Instance (byIdentity)
open OrderedMap (Keyed)

variable {K V : Type}

/-- A part of a list without repetitions is what the list has of its elements. -/
theorem filter_mem_of_sublist {α : Type} [DecidableEq α] {l l' : List α} (h : l.Sublist l')
    (hl' : l'.Nodup) : l'.filter (· ∈ l) = l := by
  have hself : l.filter (· ∈ l) = l := by simp
  have hsub := h.filter (· ∈ l)
  rw [hself] at hsub
  have hperm : l.Perm (l'.filter (· ∈ l)) := by
    rw [List.perm_ext_iff_of_nodup (hl'.sublist h) (hl'.filter _)]
    intro a
    rw [List.mem_filter, decide_eq_true_iff]
    exact ⟨fun ha => ⟨h.subset ha, ha⟩, And.right⟩
  exact (hsub.eq_of_length hperm.length_eq).symm

/-- Two elements of a part of a list are in the same order in the part and in the list. -/
theorem pair_sublist_iff {α : Type} [DecidableEq α] {l l' : List α} (h : l.Sublist l')
    (hl' : l'.Nodup) {a b : α} (ha : a ∈ l) (hb : b ∈ l) :
    [a, b].Sublist l ↔ [a, b].Sublist l' := by
  refine ⟨fun hab => hab.trans h, fun hab => ?_⟩
  have hkept := hab.filter (· ∈ l)
  rw [filter_mem_of_sublist h hl'] at hkept
  simpa [ha, hb] using hkept

namespace Instance

/-- The identities of the instances in a list of entries. -/
def identities (l : List (Instance K × V)) : List Nat := l.map (·.1.id)

theorem mem_identities {l : List (Instance K × V)} {k : Instance K} :
    k.id ∈ identities l ↔ l.any (·.1 == k) = true := by
  simp [identities]

end Instance

open Instance (identities)

namespace SlotTable

/-! ### Relative order -/

/-- Both instances are in the table, and `a` comes before `b`. -/
def Precedes (t : SlotTable K V) (a b : Instance K) : Prop :=
  [a.id, b.id].Sublist (identities t.toList)

instance (t : SlotTable K V) (a b : Instance K) : Decidable (t.Precedes a b) :=
  inferInstanceAs (Decidable (List.Sublist _ _))

theorem Placed.identities_replace {t : SlotTable K V} {k : Instance K}
    {before after : List (Option (Instance K × V))} {e : Instance K × V}
    (h : t.Placed k before e after) (v : V) :
    identities (toList ⟨t.slots.set before.length (some (k, v)), t.count⟩) =
      identities t.toList := by
  have hid : e.1.id = k.id := (Instance.beq_iff_id e.1 k).mp h.key
  rw [(h.replace v).toList_eq, h.toList_eq]
  simp [identities, hid]

/-- Of the identities before a command and those after it, one list is a part of the other. -/
theorem identities_perform (t : SlotTable K V) (c : Command (Instance K) V) :
    (identities t.toList).Sublist (identities (t.perform c).table.toList) ∨
      (identities (t.perform c).table.toList).Sublist (identities t.toList) := by
  cases c with
  | insert k v =>
    rcases t.insert_cases k v with ⟨before, e, after, hp, hins⟩ |
      ⟨-, before, after, hvacant, hins⟩ | ⟨-, -, hins⟩
    · rw [perform_insert_of_ok hins, hp.identities_replace]
      exact .inl (List.Sublist.refl _)
    · rw [perform_insert_of_ok hins, hvacant.toList_eq, toList_taken]
      exact .inl (((List.sublist_cons_self ..).append_left _).map _)
    · rw [perform_insert_of_error hins]
      exact .inl (List.Sublist.refl _)
  | erase k =>
    right
    change (identities (t.erase k).table.toList).Sublist _
    rcases t.erase_cases k with ⟨before, e, after, hp, herase⟩ | ⟨-, herase⟩
    · rw [herase, toList_free, hp.toList_eq]
      exact ((List.sublist_cons_self ..).append_left _).map _
    · rw [herase]
  | clear =>
    right
    have hnone : t.clear.toList = [] := filterMap_of_all_free (by simp [SlotTable.clear])
    change (identities t.clear.toList).Sublist _
    rw [hnone]
    exact List.nil_sublist _

theorem mem_identities_iff (t : SlotTable K V) (k : Instance K) :
    k.id ∈ identities t.toList ↔ t.contains k = true := by
  rw [Instance.mem_identities, contains_eq_any]

theorem Sound.precedes_perform_iff {t : SlotTable K V} (h : t.Sound) (c : Command (Instance K) V)
    {a b : Instance K} (ha : t.contains a = true) (hb : t.contains b = true)
    (ha' : (t.perform c).table.contains a = true) (hb' : (t.perform c).table.contains b = true) :
    (t.perform c).table.Precedes a b ↔ t.Precedes a b := by
  rw [← mem_identities_iff] at ha hb ha' hb'
  -- a command adds identities or takes some away, never both: one list has the order of the other
  rcases t.identities_perform c with hgrown | hshrunk
  · exact (pair_sublist_iff hgrown (Instance.nodup_ids_of_keyed (h.perform c).keyed) ha hb).symm
  · exact pair_sublist_iff hshrunk (Instance.nodup_ids_of_keyed h.keyed) ha' hb'

/-- Instances that stay are in the same order at the end as at the start. -/
theorem Sound.precedes_run_iff {t : SlotTable K V} (h : t.Sound)
    {cs : List (Command (Instance K) V)} {a b : Instance K}
    (ha : ∀ n, (t.run (cs.take n)).contains a = true)
    (hb : ∀ n, (t.run (cs.take n)).contains b = true) :
    (t.run cs).Precedes a b ↔ t.Precedes a b := by
  induction cs generalizing t with
  | nil => exact Iff.rfl
  | cons c cs ih =>
    have hrest := ih (h.perform c) (fun n => ha (n + 1)) (fun n => hb (n + 1))
    exact hrest.trans (h.precedes_perform_iff c (ha 0) (hb 0) (ha 1) (hb 1))

/-! ### New instances -/

/-- A new instance is in the first free slot, so it comes right behind the entries of the slots
before that one. -/
structure Admits (t : SlotTable K V) (k : Instance K) (v : V) (u : SlotTable K V)
    (before after : List (Option (Instance K × V))) : Prop where
  vacant : t.Vacant before after
  slots : u.slots = before ++ some (k, v) :: after
  toList_before : t.toList = before.filterMap id ++ after.filterMap id
  toList : u.toList = before.filterMap id ++ (k, v) :: after.filterMap id

theorem exists_admits {t : SlotTable K V} {k : Instance K} {v : V} {u : Update K V}
    (hk : t.contains k = false) (hu : t.insert k v = .ok u) :
    u.previous = none ∧ ∃ before after, t.Admits k v u.table before after := by
  have habsent : t.Absent k := (t.absent_iff k).mpr hk
  rcases t.insert_cases k v with ⟨before, e, after, hp, -⟩ |
    ⟨-, before, after, hvacant, hins⟩ | ⟨-, -, hins⟩
  · have hnone := habsent.place?
    rw [hp.place?] at hnone
    cases hnone
  · rw [hins] at hu
    cases hu
    exact ⟨rfl, before, after, hvacant, rfl, hvacant.toList_eq, toList_taken ..⟩
  · rw [hins] at hu
    cases hu

/-- Without gaps, a new instance comes last. -/
theorem Admits.toList_of_packed {t u : SlotTable K V} {k : Instance K} {v : V}
    {before after : List (Option (Instance K × V))} (h : t.Admits k v u before after)
    (ht : Packed t.slots) : u.toList = t.toList ++ [(k, v)] := by
  rw [h.vacant.slots] at ht
  rw [h.toList, h.toList_before, filterMap_of_all_free ht.all_free, List.append_nil]

/-! ### What is accepted -/

/-- The commands of a run, without the insertions that are turned away. -/
def accepted (t : SlotTable K V) : List (Command (Instance K) V) → List (Command (Instance K) V)
  | [] => []
  | c :: cs =>
    if (t.perform c).reply.isRejection then t.accepted cs
    else c :: (t.perform c).table.accepted cs

theorem perform_rejected {t : SlotTable K V} {c : Command (Instance K) V}
    (h : (t.perform c).reply.isRejection = true) : (t.perform c).table = t := by
  cases c with
  | insert k v =>
    cases hins : t.insert k v with
    | ok u =>
      rw [perform_insert_of_ok hins] at h
      cases h
    | error x => rw [perform_insert_of_error hins]
  | erase k => cases h
  | clear => cases h

theorem accepted_sublist (t : SlotTable K V) (cs : List (Command (Instance K) V)) :
    (t.accepted cs).Sublist cs := by
  induction cs generalizing t with
  | nil => exact List.Sublist.refl _
  | cons c cs ih =>
    unfold accepted
    split
    · exact (ih t).cons c
    · exact (ih _).cons_cons c

/-- What is turned away can be left out. -/
theorem run_accepted (t : SlotTable K V) (cs : List (Command (Instance K) V)) :
    t.Accepts (t.accepted cs) ∧ t.run (t.accepted cs) = t.run cs := by
  induction cs generalizing t with
  | nil => exact ⟨trivial, rfl⟩
  | cons c cs ih =>
    unfold accepted
    split
    next hrejected =>
      have hstep : t.run (c :: cs) = t.run cs := by
        change (t.perform c).table.run cs = t.run cs
        rw [perform_rejected hrejected]
      rw [hstep]
      exact ih t
    next hok =>
      obtain ⟨haccepts, hrun⟩ := ih (t.perform c).table
      exact ⟨⟨Bool.eq_false_iff.mpr hok, haccepts⟩, hrun⟩

/-! ### The order of coming in -/

/-- The identities that have come in since everything was cleared, one command later. -/
def admitted (ids : List Nat) : Command (Instance K) V → List Nat
  | .insert k _ => ids ++ [k.id]
  | .erase _ => ids
  | .clear => []

end SlotTable

namespace Registry

open SlotTable (admitted)

theorem identities_insert (r : Registry K V) (k : Instance K) (v : V) :
    identities (r.insert k v).registry.toList =
      if k.id ∈ identities r.toList then identities r.toList
      else identities r.toList ++ [k.id] := by
  have hpresent : r.contains k = true ↔ k.id ∈ identities r.toList :=
    Instance.mem_identities.symm
  rw [toList_insert]
  by_cases hk : k.id ∈ identities r.toList
  · rw [if_pos (hpresent.mpr hk), if_pos hk]
    unfold identities
    rw [List.map_map]
    refine List.map_congr_left fun e _ => ?_
    simp only [Function.comp_apply]
    split <;> rfl
  · rw [if_neg (mt hpresent.mp hk), if_neg hk]
    simp [identities]

/-- Without removals, the instances are in the order of their first coming. -/
theorem identities_run {r : Registry K V} {ids : List Nat}
    (h : identities r.toList = ids.eraseDups) {cs : List (SlotTable.Command (Instance K) V)}
    (hkeep : ∀ k, .erase k ∉ cs) :
    identities (r.run (cs.map SlotTable.Command.call)).toList =
      (cs.foldl admitted ids).eraseDups := by
  induction cs generalizing r ids with
  | nil => exact h
  | cons c cs ih =>
    refine ih ?_ fun k hk => hkeep k (List.mem_cons_of_mem c hk)
    cases c with
    | insert k v =>
      change identities (r.insert k v).registry.toList = (ids ++ [k.id]).eraseDups
      rw [identities_insert, eraseDups_concat, h]
      simp
    | erase k => exact absurd (List.mem_cons_self ..) (hkeep k)
    | clear => rfl

end Registry

namespace SlotTable

/-- After a run the table has no gaps, and lists its entries as a registry does that is told what
the table accepts: in the order of their first coming. -/
structure ListsAs (t : SlotTable K V) (cs : List (Command (Instance K) V)) (r : Registry K V) :
    Prop where
  packed : Packed (t.run cs).slots
  entries : byIdentity (t.run cs).toList =
    byIdentity (r.run ((t.accepted cs).map Command.call)).toList
  order : identities (t.run cs).toList =
    ((t.accepted cs).foldl admitted (identities t.toList)).eraseDups

theorem identities_eq_of_byIdentity {l l' : List (Instance K × V)}
    (h : byIdentity l = byIdentity l') : identities l = identities l' := by
  have hids := congrArg (List.map Prod.fst) h
  simpa [byIdentity, identities, List.map_map, Function.comp_def] using hids

theorem Aligned.listsAs {t : SlotTable K V} {r : Registry K V} (h : Aligned t r)
    {cs : List (Command (Instance K) V)} (hkeep : ∀ k, .erase k ∉ cs) : t.ListsAs cs r := by
  have hkept : ∀ k, .erase k ∉ t.accepted cs :=
    fun k hk => hkeep k ((t.accepted_sublist cs).subset hk)
  obtain ⟨haccepts, hrun⟩ := t.run_accepted cs
  have haligned := h.run hkept haccepts
  rw [hrun] at haligned
  have hstart : identities r.toList = (identities t.toList).eraseDups := by
    rw [identities_eq_of_byIdentity h.entries]
    exact (eraseDups_of_nodup r.nodup_ids).symm
  refine ⟨haligned.packed, haligned.entries, ?_⟩
  rw [identities_eq_of_byIdentity haligned.entries]
  exact Registry.identities_run hstart hkept

theorem Sound.aligned_toRegistry {t : SlotTable K V} (h : t.Sound) (ht : Packed t.slots)
    (id : Nat) : Aligned t (t.toRegistry id) where
  packed := ht
  entries := congrArg byIdentity (Registry.toList_ofList h.keyed id).symm

theorem Sound.aligned_empty {t : SlotTable K V} (h : t.Sound) (ht : t.isEmpty = true) (id : Nat) :
    Aligned t { id } := by
  have hcount : t.count = 0 := eq_of_beq ht
  have hnone : t.toList = [] := List.length_eq_zero_iff.mp (h.count.symm.trans hcount)
  refine ⟨packed_of_all_free ?_, congrArg byIdentity hnone⟩
  simpa [toList, List.filterMap_eq_nil_iff] using hnone

/-- Two instances of a table are gone through in the same order as long as both are there. A new one
that is accepted takes the first free slot, and comes last if there are no gaps. Without removals a
table that starts without gaps stays without them: it is gone through as a registry would be that is
told what it accepts, in the order in which instances first came in since it was cleared. -/
theorem order_kept_while_present (cs : List (Instance.Command K V)) {name : String}
    {t : SlotTable K V}
    (ht : (({} : Instance.Workspace K V).run cs).tables.get? name = some t) :
    (∀ more a b, (∀ n, (t.run (more.take n)).contains a = true) →
      (∀ n, (t.run (more.take n)).contains b = true) →
      ((t.run more).Precedes a b ↔ t.Precedes a b)) ∧
    (∀ k v u, t.contains k = false → t.insert k v = .ok u →
      u.previous = none ∧ (∃ before after, t.Admits k v u.table before after) ∧
      (Packed t.slots → u.table.toList = t.toList ++ [(k, v)])) ∧
    ∀ more, (∀ k, .erase k ∉ more) → ∀ id,
      (Packed t.slots → t.ListsAs more (t.toRegistry id)) ∧
      (t.isEmpty = true → t.ListsAs more { id }) := by
  have hsound : t.Sound := Instance.Workspace.tablesSound_empty.run cs name t ht
  refine ⟨fun more a b ha hb => hsound.precedes_run_iff ha hb, fun k v u hk hu => ?_,
    fun more hkeep id => ⟨fun hpacked => ?_, fun hempty => ?_⟩⟩
  · obtain ⟨hprevious, before, after, hadmits⟩ := exists_admits hk hu
    exact ⟨hprevious, ⟨before, after, hadmits⟩, hadmits.toList_of_packed⟩
  · exact (hsound.aligned_toRegistry hpacked id).listsAs hkeep
  · exact (hsound.aligned_empty hempty id).listsAs hkeep

/-- In a table with a gap in front two instances stay in order while a third one takes the gap; an
empty table of two slots is filled, cleared and filled again, and turns an instance away. -/
theorem order_kept_while_present_gap :
    let k (name : String) (id : Nat) : Instance Nat := ⟨id, name, 5⟩
    let made : List (Instance.Command Nat Nat) := [.newInstance "a" 5, .newInstance "b" 5,
      .newInstance "c" 5, .newInstance "d" 5, .newTable "t" 4, .newTable "u" 2]
    let insert (name : String) (v : Nat) : Instance.Command Nat Nat :=
      .table "t" (.insert (.named name) v)
    let cs := made ++ [insert "a" 1, insert "b" 2, insert "c" 3, .table "t" (.erase (.named "a"))]
    let t : SlotTable Nat Nat := ⟨[none, some (k "b" 1, 2), some (k "c" 2, 3), none], 2⟩
    let filled : SlotTable Nat Nat :=
      ⟨[some (k "d" 3, 4), some (k "b" 1, 2), some (k "c" 2, 3), none], 3⟩
    let more : List (Command (Instance Nat) Nat) := [.insert (k "d" 3) 4, .insert (k "b" 1) 9]
    let calls : List (Command (Instance Nat) Nat) := [.insert (k "a" 0) 1, .clear,
      .insert (k "c" 2) 2, .insert (k "b" 1) 3, .insert (k "a" 0) 4, .insert (k "c" 2) 5]
    (({} : Instance.Workspace Nat Nat).run cs).tables.get? "t" = some t ∧
    (t.run more).Precedes (k "b" 1) (k "c" 2) ∧
    t.insert (k "d" 3) 4 = .ok ⟨filled, none⟩ ∧
    (∃ before after, t.Admits (k "d" 3) 4 filled before after) ∧
    (({} : Instance.Workspace Nat Nat).run cs).tables.get? "u" = some (blank 2) ∧
    (blank 2).ListsAs calls { id := 0 } ∧
    identities ((blank 2 : SlotTable Nat Nat).run calls).toList = [2, 1] := by
  intro k made insert cs t filled more calls
  have ht : (({} : Instance.Workspace Nat Nat).run cs).tables.get? "t" = some t := by rfl
  have hu : (({} : Instance.Workspace Nat Nat).run cs).tables.get? "u" = some (blank 2) := by rfl
  have hb : ∀ n, (t.run (more.take n)).contains (k "b" 1) = true := by
    rintro (_ | _ | _ | n) <;> rfl
  have hc : ∀ n, (t.run (more.take n)).contains (k "c" 2) = true := by
    rintro (_ | _ | _ | n) <;> rfl
  have hfilled : t.insert (k "d" 3) 4 = .ok ⟨filled, none⟩ := by rfl
  obtain ⟨horder, hnew, -⟩ := order_kept_while_present cs ht
  obtain ⟨-, -, hlists⟩ := order_kept_while_present cs hu
  obtain ⟨-, hadmits, -⟩ := hnew (k "d" 3) 4 _ (by rfl) hfilled
  obtain ⟨-, hempty⟩ := hlists calls (by simp [calls]) 0
  exact ⟨ht, (horder more _ _ hb hc).mpr (by decide), hfilled, hadmits, hu, hempty rfl, by decide⟩

end SlotTable

end WorkTracking
