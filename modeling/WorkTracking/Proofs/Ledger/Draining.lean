import Mathlib.Data.List.Forall2
import WorkTracking.Proofs.Ledger.Table

/-!
Draining a ledger: all live statements are removed, in whatever order they are named, and any of the
others may take the first place on the way. Each removal takes out one entry, that of its statement,
and hands back the cursors this was visited with. What is left in the end is a new ledger.
-/
namespace WorkTracking.Ledger

open OrderedMap (Keyed)

variable {S C : Type} [BEq S] [BEq C] {l : Ledger S C}

/-- Removals one after another, each with the pick of the statement that becomes first. -/
def removals (order : List (S × Nat)) : List (Action S C) := order.map fun o => .remove o.1 o.2

theorem run_cons (l : Ledger S C) (a : Action S C) (as : List (Action S C)) :
    l.run (a :: as) = (l.act a).1.run as := rfl

theorem run_append (l : Ledger S C) (as bs : List (Action S C)) :
    l.run (as ++ bs) = (l.run as).run bs :=
  List.foldl_append

theorem results_append (l : Ledger S C) (as bs : List (Action S C)) :
    l.results (as ++ bs) = l.results as ++ (l.run as).results bs := by
  induction as generalizing l with
  | nil => rfl
  | cons a as ih => simp only [List.cons_append, results, ih, run_cons]

theorem eq_new_of_visits_eq_nil (h : l.visits = []) : l = {} := by
  obtain ⟨_ | live⟩ := l
  · rfl
  · simp [visits] at h

/-! ### One removal -/

variable [EquivBEq S]

/-- A statement that is visited can be removed, and its entry is then the only one that is gone. -/
theorem remove_visited (hl : Keyed l.toList) {v : S × CursorSet C} (hv : v ∈ l.visits) {s : S}
    (hs : s == v.1) (choice : Nat) :
    ∃ r, l.remove s choice = some r ∧ r.cursors = v.2 ∧ Keyed r.ledger.toList ∧
      l.visits.Perm (v :: r.ledger.visits) := by
  obtain ⟨e, he, rfl⟩ := List.mem_map.mp hv
  have hkey : e.1 == s := BEq.symm hs
  have hpresent : l.contains s = true := by
    rw [contains_eq_any]
    exact List.any_eq_true.mpr ⟨e, he, hkey⟩
  obtain ⟨r, hr, hcursors, hperm⟩ := remove_of_present hl hpresent choice
  have hfind : l.toList.find? (·.1 == s) = some e := hl.find?_eq_some_iff.mpr ⟨he, hkey⟩
  have herase : l.toList.eraseP (·.1 == s) = l.toList.eraseP (·.1 == e.1) := by
    congr 1
    funext x
    exact BEq.congr_right hs
  have hrest : l.toList.Perm (e :: r.ledger.toList) := by
    rw [herase] at hperm
    exact (hl.perm_cons_eraseP he).trans (hperm.symm.cons e)
  refine ⟨r, hr, ?_, (OrderedMap.keyed_cons.mp (hl.of_perm hrest)).2, hrest.map _⟩
  rw [hcursors, cursors?_eq_bind, hfind]
  rfl

/-- What there is of other statements stays, whether or not there was something to remove. -/
theorem act_remove_others (hl : Keyed l.toList) (s t : S) (choice : Nat) :
    let next := (l.act (.remove s choice)).1
    next.contains t = (!(s == t) && l.contains t) ∧
      next.cursors? t = if s == t then none else l.cursors? t := by
  intro next
  have hfind : next.toList.find? (·.1 == t) =
      if s == t then none else l.toList.find? (·.1 == t) := by
    cases hs : l.contains s with
    | true =>
      obtain ⟨r, hr, -, hperm⟩ := remove_of_present hl hs choice
      have hnext : next = r.ledger := by simp only [next, act, hr]
      have hkeyed : Keyed (l.toList.eraseP (·.1 == s)) := hl.sublist (List.eraseP_sublist.map _)
      rw [hnext, (hkeyed.of_perm hperm.symm).find?_perm hperm, OrderedMap.find?_eraseP hl]
    | false =>
      have hnext : next = l := by simp only [next, act, remove_of_absent hs]
      rw [hnext]
      split
      next hst =>
        rw [contains_eq_any, List.any_eq_false] at hs
        refine List.find?_eq_none.mpr fun e he => ?_
        rw [← BEq.congr_right hst]
        exact hs e he
      next => rfl
  have hcontains (x : Ledger S C) : x.contains t = (x.toList.find? (·.1 == t)).isSome := by
    rw [contains_eq_any, Bool.eq_iff_iff]
    simp
  rw [hcontains, hcontains, cursors?_eq_bind, cursors?_eq_bind, hfind]
  cases s == t <;> simp

/-! ### Removals in any order -/

theorem run_removals (hl : Keyed l.toList) {order : List (S × Nat)} {told : List (S × CursorSet C)}
    (htold : told.Perm l.visits) (hnamed : List.Forall₂ (fun o v => o.1 == v.1) order told) :
    l.results (removals order) = told.map (fun v => .removed (some v.2)) ∧
      ∀ n, Keyed (l.run (removals (order.take n))).toList ∧
        (told.drop n).Perm (l.run (removals (order.take n))).visits := by
  induction hnamed generalizing l with
  | nil =>
    exact ⟨rfl, fun n => by simpa [removals, run, hl] using htold⟩
  | @cons o v order told hs _ ih =>
    obtain ⟨r, hr, hcursors, hkeyed, hvisits⟩ :=
      remove_visited hl (htold.subset (List.mem_cons_self ..)) hs o.2
    have hact : l.act (.remove o.1 o.2) = (r.ledger, .removed (some v.2)) := by
      simp only [act, hr, hcursors]
    obtain ⟨hresults, hrun⟩ := ih hkeyed ((htold.trans hvisits).cons_inv)
    constructor
    · show (l.act (.remove o.1 o.2)).2 :: (l.act (.remove o.1 o.2)).1.results (removals order) = _
      rw [hact, hresults]
      rfl
    · intro n
      cases n with
      | zero => exact ⟨hl, htold⟩
      | succ n =>
        show Keyed ((l.act (.remove o.1 o.2)).1.run (removals (order.take n))).toList ∧
          (told.drop n).Perm ((l.act (.remove o.1 o.2)).1.run (removals (order.take n))).visits
        rw [hact]
        exact hrun n

/-- In whatever order the live statements of a ledger are removed, and whichever become first on the
way, each removal hands back the cursors that its statement was visited with, and takes out nothing
else. In the end the ledger is a new one, and goes on as such. -/
theorem drained_in_any_order (as : List (Action S C)) {order : List (S × Nat)}
    {told : List (S × CursorSet C)} (htold : told.Perm (({} : Ledger S C).run as).visits)
    (hnamed : List.Forall₂ (fun o v => o.1 == v.1) order told) :
    let l := ({} : Ledger S C).run as
    let left (n : Nat) := l.run (removals (order.take n))
    l.results (removals order) = told.map (fun v => .removed (some v.2)) ∧
    (∀ n, (left n).size = l.size - n ∧ (left n).visits.Perm (told.drop n)) ∧
    (∀ n o, order[n]? = some o → ∀ t,
      (left (n + 1)).contains t = (!(o.1 == t) && (left n).contains t) ∧
      (left (n + 1)).cursors? t = if o.1 == t then none else (left n).cursors? t) ∧
    l.run (removals order) = {} ∧
    ∀ more, l.run (removals order ++ more) = ({} : Ledger S C).run more ∧
      l.results (removals order ++ more) =
        told.map (fun v => .removed (some v.2)) ++ ({} : Ledger S C).results more := by
  intro l left
  have hl : Keyed l.toList := (lists_empty.run as).keyed
  obtain ⟨hresults, hrun⟩ := run_removals hl htold hnamed
  have hlength (x : Ledger S C) : x.size = x.visits.length := by
    rw [size_eq_length, visits, List.length_map]
  have hend : l.run (removals order) = {} := by
    obtain ⟨-, hnone⟩ := hrun order.length
    rw [List.take_length, hnamed.length_eq, List.drop_length] at hnone
    exact eq_new_of_visits_eq_nil hnone.nil_eq.symm
  refine ⟨hresults, fun n => ⟨?_, (hrun n).2.symm⟩, fun n o ho t => ?_, hend, fun more => ?_⟩
  · rw [hlength, hlength, ← (hrun n).2.length_eq, ← htold.length_eq, List.length_drop]
  · have hnext : left (n + 1) = ((left n).act (.remove o.1 o.2)).1 := by
      simp only [left, List.take_add_one, ho, Option.toList_some, removals, List.map_append,
        run_append]
      rfl
    rw [hnext]
    exact act_remove_others (hrun n).1 o.1 t o.2
  · rw [run_append, results_append, hend, hresults]
    exact ⟨rfl, rfl⟩

/-- One of the others is removed, then the first, so that another takes its place, then one beside
that, and the last. -/
theorem drained_in_any_order_promoting :
    let as : List (Action Nat Nat) := [.register 1, .openCursors 2 (·.insertAll [20, 21]),
      .register 3, .openCursors 4 (·.insert 40)]
    let l := ({} : Ledger Nat Nat).run as
    let two : CursorSet Nat := CursorSet.empty.insertAll [20, 21]
    let four : CursorSet Nat := CursorSet.empty.insert 40
    let order := [(3, 0), (1, 5), (2, 0), (4, 0)]
    let told := [(3, .empty), (1, .empty), (2, two), (4, four)]
    told.Perm l.visits ∧ List.Forall₂ (fun o v => o.1 == v.1) order told ∧
    (l.run (removals (order.take 2))).first? = some 4 ∧
    l.results (removals order) = [.removed (some .empty), .removed (some .empty),
      .removed (some two), .removed (some four)] ∧
    l.run (removals order) = {} := by
  intro as l two four order told
  have htold : told.Perm l.visits :=
    (@List.perm_middle _ (3, .empty) [(1, .empty), (2, two)] [(4, four)]).symm
  have hnamed : List.Forall₂ (fun o v => o.1 == v.1) order told := by simp [order, told]
  obtain ⟨hresults, -, -, hend, -⟩ := drained_in_any_order as htold hnamed
  exact ⟨htold, hnamed, rfl, hresults, hend⟩

end WorkTracking.Ledger
