import WorkTracking.Proofs.Instance.BoundedRegistry
import WorkTracking.Proofs.Instance.Snapshots

/-!
Promotion of slot tables. A table that has turned an instance away is made into a registry, and this
takes the instance in. It then holds what a registry would hold that was used from the start, in the
order of the slots, which without removals is the order in which the instances came in.
-/
namespace WorkTracking

open Instance (byIdentity)

variable {K V : Type}

/-! ### A table and a registry that are told the same -/

def Instance.Reply.isRejection : Instance.Reply K V → Bool
  | .rejected _ => true
  | _ => false

namespace SlotTable

/-- The command as it is given to a registry. -/
def Command.call : Command (Instance K) V → Registry.Call K V
  | .insert k v => .command (.insert k v)
  | .erase k => .command (.erase k)
  | .clear => .command .clear

def run (t : SlotTable K V) (cs : List (Command (Instance K) V)) : SlotTable K V :=
  cs.foldl (fun t c => (t.perform c).table) t

/-- No instance is turned away on the way. -/
def Accepts (t : SlotTable K V) : List (Command (Instance K) V) → Prop
  | [] => True
  | c :: cs => (t.perform c).reply.isRejection = false ∧ (t.perform c).table.Accepts cs

instance decidableAccepts (t : SlotTable K V) :
    (cs : List (Command (Instance K) V)) → Decidable (t.Accepts cs)
  | [] => .isTrue trivial
  | c :: cs =>
    have := decidableAccepts (t.perform c).table cs
    inferInstanceAs (Decidable (_ ∧ _))

namespace Mirrors

variable {n : Nat} {t : SlotTable K V} {r : Registry K V}

theorem accepted (h : Mirrors n t r) {c : Command (Instance K) V}
    (hc : (t.perform c).reply.isRejection = false) :
    Mirrors n (t.perform c).table (r.after c.call) := by
  obtain ⟨hstate, hreply, -⟩ := h.respond c
  cases c with
  | insert k v =>
    by_cases hturned : r.contains k = false ∧ r.size = n
    · have hrejected : (t.perform (.insert k v)).reply = .rejected ⟨k, v, n⟩ := by
        rwa [Registry.respondWithin, if_pos hturned] at hreply
      rw [hrejected] at hc
      cases hc
    · rw [Registry.respondWithin, if_neg hturned] at hstate
      exact hstate
  | erase k => exact hstate
  | clear => exact hstate

theorem run (h : Mirrors n t r) {cs : List (Command (Instance K) V)} (hcs : t.Accepts cs) :
    Mirrors n (t.run cs) (r.run (cs.map Command.call)) := by
  induction cs generalizing t r with
  | nil => exact h
  | cons c cs ih => exact ih (h.accepted hcs.1) hcs.2

end Mirrors

/-! ### Slots without gaps -/

/-- No slot is taken behind a free one. -/
def Packed (slots : List (Option (Instance K × V))) : Prop :=
  slots.Pairwise fun a b => a = none → b = none

theorem packed_some_iff {before after : List (Option (Instance K × V))} {e : Instance K × V} :
    Packed (before ++ some e :: after) ↔ (∀ s ∈ before, s ≠ none) ∧ Packed after := by
  unfold Packed
  rw [List.pairwise_append, List.pairwise_cons]
  constructor
  · rintro ⟨-, ⟨-, hafter⟩, hcross⟩
    refine ⟨fun s hs hnone => ?_, hafter⟩
    cases hcross s hs (some e) (List.mem_cons_self ..) hnone
  · rintro ⟨hbefore, hafter⟩
    have htaken : ∀ a ∈ before, ∀ b : Option (Instance K × V), a = none → b = none :=
      fun a ha _ hnone => absurd hnone (hbefore a ha)
    refine ⟨?_, ⟨fun _ _ hnone => ?_, hafter⟩, fun a ha b _ => htaken a ha b⟩
    · exact List.pairwise_of_forall_mem_list fun a ha b _ => htaken a ha b
    · cases hnone

theorem Packed.all_free {before after : List (Option (Instance K × V))}
    (h : Packed (before ++ none :: after)) : ∀ s ∈ after, s = none := by
  unfold Packed at h
  rw [List.pairwise_append, List.pairwise_cons] at h
  exact fun s hs => h.2.1.1 s hs rfl

theorem packed_of_all_free {slots : List (Option (Instance K × V))} (h : ∀ s ∈ slots, s = none) :
    Packed slots :=
  List.pairwise_of_forall_mem_list fun _ _ s hs _ => h s hs

theorem filterMap_of_all_free {slots : List (Option (Instance K × V))}
    (h : ∀ s ∈ slots, s = none) : slots.filterMap id = [] := by
  simpa [List.filterMap_eq_nil_iff] using h

/-- The table has no gaps, and lists the instances in the order of the registry. -/
structure Aligned (t : SlotTable K V) (r : Registry K V) : Prop where
  packed : Packed t.slots
  entries : byIdentity t.toList = byIdentity r.toList

namespace Aligned

variable {t : SlotTable K V} {r : Registry K V} {k : Instance K}
  {before after : List (Option (Instance K × V))} {e : Instance K × V}

theorem blank (n id : Nat) : Aligned (SlotTable.blank n : SlotTable K V) { id } := by
  have hfree : ∀ s ∈ (SlotTable.blank n : SlotTable K V).slots, s = none :=
    fun s hs => List.eq_of_mem_replicate hs
  refine ⟨packed_of_all_free hfree, ?_⟩
  rw [toList, filterMap_of_all_free hfree]
  rfl

theorem clear (t : SlotTable K V) (r : Registry K V) : Aligned t.clear r.clear := by
  have hfree : ∀ s ∈ t.clear.slots, s = none := by simp [SlotTable.clear]
  refine ⟨packed_of_all_free hfree, ?_⟩
  rw [toList, filterMap_of_all_free hfree]
  rfl

theorem replace (h : Aligned t r) (hp : t.Placed k before e after) (v : V) :
    Aligned ⟨t.slots.set before.length (some (k, v)), t.count⟩ (r.insert k v).registry := by
  constructor
  · have hpacked := h.packed
    rw [hp.slots, packed_some_iff] at hpacked
    rw [(hp.replace v).slots, packed_some_iff]
    exact hpacked
  · rw [hp.byIdentity_replace, h.entries]
    exact Instance.write_byIdentity k v r.toList

/-- Without gaps, the first free slot is behind all that are taken. -/
theorem fill (h : Aligned t r) (hk : t.Absent k) (hvacant : t.Vacant before after) (v : V) :
    Aligned ⟨before ++ some (k, v) :: after, t.count + 1⟩ (r.insert k v).registry := by
  have hpacked := h.packed
  rw [hvacant.slots] at hpacked
  have hfree : ∀ s ∈ after, s = none := hpacked.all_free
  constructor
  · refine packed_some_iff.mpr ⟨fun s hs hnone => ?_, packed_of_all_free hfree⟩
    have htaken := hvacant.first s hs
    rw [hnone] at htaken
    cases htaken
  · have habsent : r.contains k = false := by
      rw [Registry.contains_eq_any, ← Instance.any_byIdentity, ← h.entries, Instance.any_byIdentity]
      exact hk.any_toList
    have hnew : toList ⟨before ++ some (k, v) :: after, t.count + 1⟩ = t.toList ++ [(k, v)] := by
      rw [toList_taken, hvacant.toList_eq, filterMap_of_all_free hfree, List.append_nil]
    rw [hnew, Registry.toList_insert_of_absent habsent, Instance.byIdentity_append,
      Instance.byIdentity_append, h.entries]

theorem accepted (h : Aligned t r) {c : Command (Instance K) V} (hkeep : ∀ k, c ≠ .erase k)
    (hc : (t.perform c).reply.isRejection = false) :
    Aligned (t.perform c).table (r.after c.call) := by
  cases c with
  | insert k v =>
    rcases t.insert_cases k v with ⟨before, e, after, hp, hins⟩ |
      ⟨hk, before, after, hvacant, hins⟩ | ⟨-, -, hins⟩
    · rw [perform_insert_of_ok hins]
      exact h.replace hp v
    · rw [perform_insert_of_ok hins]
      exact h.fill hk hvacant v
    · rw [perform_insert_of_error hins] at hc
      cases hc
  | erase k => exact absurd rfl (hkeep k)
  | clear => exact clear t r

theorem run (h : Aligned t r) {cs : List (Command (Instance K) V)} (hkeep : ∀ k, .erase k ∉ cs)
    (hcs : t.Accepts cs) : Aligned (t.run cs) (r.run (cs.map Command.call)) := by
  induction cs generalizing t r with
  | nil => exact h
  | cons c cs ih =>
    have hhere : ∀ k, c ≠ .erase k := by
      rintro k rfl
      exact hkeep k (List.mem_cons_self ..)
    have hlater : ∀ k, .erase k ∉ cs := fun k hk => hkeep k (List.mem_cons_of_mem c hk)
    exact ih (h.accepted hhere hcs.1) hlater hcs.2

end Aligned

/-! ### Promotion -/

namespace Mirrors

variable {n : Nat} {t : SlotTable K V} {r : Registry K V} {k : Instance K}

theorem toList_toRegistry (h : Mirrors n t r) (i : Nat) : (t.toRegistry i).toList = t.toList :=
  Registry.toList_ofList (Instance.keyed_byIdentity.mp h.keyed) i

theorem contains_toRegistry (h : Mirrors n t r) (i : Nat) (k : Instance K) :
    (t.toRegistry i).contains k = t.contains k := by
  rw [Registry.contains_eq_any, h.toList_toRegistry, contains_eq_any]

/-- An instance that the table lacks comes behind the entries of the slots. -/
theorem toList_promoted (h : Mirrors n t r) (hk : t.contains k = false) (v : V) (i : Nat) :
    ((t.toRegistry i).insert k v).registry.toList = t.toList ++ [(k, v)] := by
  rw [← h.toList_toRegistry i]
  exact Registry.toList_insert_of_absent ((h.contains_toRegistry i k).trans hk) v

theorem toList_direct (h : Mirrors n t r) (hk : t.contains k = false) (v : V) :
    (r.insert k v).registry.toList = r.toList ++ [(k, v)] :=
  Registry.toList_insert_of_absent ((h.contains k).symm.trans hk) v

theorem promoted_perm_direct (h : Mirrors n t r) (hk : t.contains k = false) (v : V) (i : Nat) :
    (byIdentity ((t.toRegistry i).insert k v).registry.toList).Perm
      (byIdentity (r.insert k v).registry.toList) := by
  rw [h.toList_promoted hk, h.toList_direct hk, Instance.byIdentity_append,
    Instance.byIdentity_append]
  exact h.entries.append_right _

end Mirrors

/-- The table `t` of `n` slots, which the commands `cs` have led to, has turned `x` away, the entry of
`k` and `v`. With this entry the registry made of `t` is `promoted`; `direct` is a registry that was
told everything from the start. -/
structure LosesNothing (n : Nat) (cs : List (Command (Instance K) V)) (k : Instance K) (v : V)
    (x : Rejection K V) (t : SlotTable K V) (promoted : Registry.Update K V)
    (direct : Registry K V) : Prop where
  made : ofCapacity n = .ok (blank n : SlotTable K V)
  returned : x = ⟨k, v, n⟩
  kept : t.perform (.insert k v) = ⟨t, .rejected x, [x.notice]⟩
  fresh : promoted.previous = none
  entries : promoted.registry.toList = t.toList ++ [(k, v)]
  size : promoted.registry.size = n + 1
  size_direct : direct.size = n + 1
  nodup : (promoted.registry.toList.map (·.1.id)).Nodup
  perm : (byIdentity promoted.registry.toList).Perm (byIdentity direct.toList)
  get? : ∀ a, promoted.registry.get? a = direct.get? a
  contains : ∀ a, promoted.registry.contains a = direct.contains a
  /-- A removal makes room for one that comes later; without one, the order is the same too. -/
  ordered : (∀ a, .erase a ∉ cs) →
    byIdentity promoted.registry.toList = byIdentity direct.toList

/-- Nothing is lost when a table of `n` slots is made into a registry because it has turned an
instance away. What was turned away is given back, and is new to the registry. Then this holds
`n + 1` entries, those of a registry that was told everything from the start. -/
theorem promotion_loses_nothing {n : Nat} (hn : 1 ≤ n) {cs : List (Command (Instance K) V)}
    (hcs : (blank n).Accepts cs) {k : Instance K} {v : V} {x : Rejection K V}
    (hx : ((blank n).run cs).insert k v = .error x) (i j : Nat) :
    let t : SlotTable K V := (blank n).run cs
    let promoted := (t.toRegistry i).insert x.key x.value
    let direct := ({ id := j } : Registry K V).run ((cs ++ [Command.insert k v]).map Command.call)
    LosesNothing n cs k v x t promoted direct := by
  intro t promoted direct
  let r := ({ id := j } : Registry K V).run (cs.map Command.call)
  have hmirror : Mirrors n t r := (Mirrors.blank n j).run hcs
  have hdirect : direct = (r.insert k v).registry := by
    simp only [direct, r, Registry.run, List.map_append, List.foldl_append]
    rfl
  obtain rfl : x = ⟨k, v, n⟩ := hmirror.refused hx
  obtain ⟨habsent, hfull⟩ := (hmirror.insert_error_iff k v).mp ⟨_, hx⟩
  have hlist : promoted.registry.toList = t.toList ++ [(k, v)] :=
    hmirror.toList_promoted habsent v i
  have hperm : (byIdentity promoted.registry.toList).Perm (byIdentity direct.toList) := by
    rw [hdirect]
    exact hmirror.promoted_perm_direct habsent v i
  have hkeyed := promoted.registry.keyed_byIdentity_toList
  constructor
  case made => exact if_neg (by omega)
  case returned => rfl
  case kept => exact perform_insert_of_error hx
  case fresh => exact Registry.get?_of_absent ((hmirror.contains_toRegistry i k).trans habsent)
  case entries => exact hlist
  case size =>
    change promoted.registry.toList.length = n + 1
    rw [hlist, List.length_append, ← hmirror.count, hfull]
    rfl
  case size_direct =>
    change direct.toList.length = n + 1
    rw [hdirect, hmirror.toList_direct habsent, List.length_append]
    exact congrArg (· + 1) (hmirror.size.symm.trans hfull)
  case nodup => exact promoted.registry.nodup_ids
  case perm => exact hperm
  case get? => exact fun a => Instance.find?_eq_of_perm hkeyed hperm a
  case contains => exact fun a => Instance.any_eq_of_perm hperm a
  case ordered =>
    intro hkeep
    have haligned : Aligned t r := (Aligned.blank n j).run hkeep hcs
    rw [hlist, hdirect, hmirror.toList_direct habsent, Instance.byIdentity_append,
      Instance.byIdentity_append, haligned.entries]

/-- A table of two slots turns an instance away: once after a removal has changed the order of the
slots, and once when nothing has been removed. -/
theorem promotion_loses_nothing_both_ways :
    let a : Instance Nat := ⟨0, "a", 5⟩
    let b : Instance Nat := ⟨1, "b", 5⟩
    let c : Instance Nat := ⟨2, "c", 5⟩
    let d : Instance Nat := ⟨3, "d", 5⟩
    let gaps : List (Command (Instance Nat) Nat) :=
      [.insert a 1, .insert b 2, .erase a, .insert c 3]
    let kept : List (Command (Instance Nat) Nat) :=
      [.insert d 1, .clear, .insert b 2, .insert c 3, .insert b 4]
    let promoted (cs : List (Command (Instance Nat) Nat)) :=
      (((blank 2).run cs).toRegistry 0).insert d 9
    let direct (cs : List (Command (Instance Nat) Nat)) :=
      ({ id := 1 } : Registry Nat Nat).run ((cs ++ [Command.insert d 9]).map Command.call)
    (blank 2).Accepts gaps ∧ ((blank 2).run gaps).insert d 9 = .error ⟨d, 9, 2⟩ ∧
    (promoted gaps).registry.toList = [(c, 3), (b, 2), (d, 9)] ∧
    (direct gaps).toList = [(b, 2), (c, 3), (d, 9)] ∧
    (∀ k, (promoted gaps).registry.get? k = (direct gaps).get? k) ∧
    (blank 2).Accepts kept ∧ ((blank 2).run kept).insert d 9 = .error ⟨d, 9, 2⟩ ∧
    byIdentity (promoted kept).registry.toList = byIdentity (direct kept).toList := by
  intro a b c d gaps kept promoted direct
  have hn : 1 ≤ 2 := by decide
  have hgaps : (blank 2).Accepts gaps := by decide
  have hkept : (blank 2).Accepts kept := by decide
  have hfull : ((blank 2).run gaps).insert d 9 = .error ⟨d, 9, 2⟩ := by rfl
  have hfull' : ((blank 2).run kept).insert d 9 = .error ⟨d, 9, 2⟩ := by rfl
  have hall := promotion_loses_nothing hn hgaps hfull 0 1
  have hall' := promotion_loses_nothing hn hkept hfull' 0 1
  refine ⟨hgaps, hfull, by rfl, by rfl, hall.get?, hkept, hfull', hall'.ordered ?_⟩
  simp [kept]

end SlotTable

end WorkTracking
