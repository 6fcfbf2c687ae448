import Mathlib.Data.Finset.Card
import WorkTracking.Proofs.Instance.Roll
import WorkTracking.Proofs.Repetitions

/-!
Lists of entries that a registry takes in at once. An instance may come any number of times: it
stands where it came first, with the value that came last. Instances that are there already keep
their places and get new values, the others come behind them.
-/
namespace WorkTracking

variable {K V : Type}

namespace Instance

/-- The value that comes last for an instance. -/
def lastValue? (l : List (Instance K × V)) (k : Instance K) : Option V :=
  (l.reverse.find? (·.1 == k)).map Prod.snd

theorem lastValue?_cons (e : Instance K × V) (l : List (Instance K × V)) (k : Instance K) :
    lastValue? (e :: l) k = (lastValue? l k).or (if e.1 == k then some e.2 else none) := by
  unfold lastValue?
  rw [List.reverse_cons, List.find?_append, Option.map_or, List.find?_singleton]
  split <;> rfl

theorem lastValue?_of_last {before after : List (Instance K × V)} {k : Instance K} {v : V}
    (h : ∀ e ∈ after, e.1.id ≠ k.id) : lastValue? (before ++ (k, v) :: after) k = some v := by
  have hlater : after.reverse.find? (·.1 == k) = none := by
    rw [List.find?_eq_none]
    intro e he
    simpa using h e (List.mem_reverse.mp he)
  unfold lastValue?
  rw [List.reverse_append, List.reverse_cons, List.append_assoc, List.find?_append, hlater]
  simp

end Instance

open Instance (lastValue?)

namespace Registry

/-! ### Values and places -/

/-- A registry is its keys in order, with what is found under them. -/
theorem toList_eq_filterMap (r : Registry K V) :
    r.toList = r.keys.filterMap fun k => (r.get? k).map (k, ·) := by
  have hfound : ∀ e ∈ r.toList, (r.get? e.1).map (e.1, ·) = some e := by
    intro e he
    rw [get?_eq_find?, r.keyed_toList.find?_eq_some_iff.mpr ⟨he, BEq.rfl⟩]
    rfl
  have hentries : (r.toList.map Prod.fst).filterMap (fun k => (r.get? k).map (k, ·)) =
      r.toList.filterMap some := by
    rw [List.filterMap_map]
    exact List.filterMap_congr hfound
  exact (hentries.trans List.filterMap_some).symm

/-- What comes last is found, or what was there before. -/
theorem get?_insertAll (r : Registry K V) (l : List (Instance K × V)) (k : Instance K) :
    (r.insertAll l).get? k = (lastValue? l k).or (r.get? k) := by
  induction l generalizing r with
  | nil => rfl
  | cons e l ih =>
    have hstep : (r.insertAll (e :: l)).get? k = (lastValue? l k).or
        ((r.insert e.1 e.2).registry.get? k) := ih (r.insert e.1 e.2).registry
    rw [hstep, get?_insert, Instance.lastValue?_cons, Option.or_assoc]
    split <;> rfl

theorem contains_insertAll (r : Registry K V) (l : List (Instance K × V)) (k : Instance K) :
    (r.insertAll l).contains k = (r.contains k || l.any (·.1 == k)) := by
  have hlast : (lastValue? l k).isSome = l.any (·.1 == k) := by
    rw [Bool.eq_iff_iff]
    simp [lastValue?]
  rw [contains_eq_isSome, get?_insertAll, Option.isSome_or, hlast, ← contains_eq_isSome,
    Bool.or_comm]

theorem insertAll_append (r : Registry K V) (l l' : List (Instance K × V)) :
    r.insertAll (l ++ l') = (r.insertAll l).insertAll l' :=
  List.foldl_append

/-- The instances of a list, in the order in which they come first. -/
def comers (l : List (Instance K × V)) : List (Instance K) := (l.map Prod.fst).eraseDups

/-- The instances that were there keep their places, and the others come behind them. -/
theorem keys_insertAll (r : Registry K V) (l : List (Instance K × V)) :
    (r.insertAll l).keys = r.keys ++ (comers l).filter (!r.contains ·) := by
  induction l using List.reverseRecOn with
  | nil => simp [insertAll, comers]
  | append_singleton l e ih =>
    have hkeys : (r.insertAll (l ++ [e])).keys = if (r.insertAll l).contains e.1 then
        (r.insertAll l).keys else (r.insertAll l).keys ++ [e.1] := by
      rw [insertAll_append]
      exact (r.insertAll l).entries.keys_insert e.1 e.2
    have hcomers : comers (l ++ [e]) =
        if l.any (·.1 == e.1) then comers l else comers l ++ [e.1] := by
      have hany : (l.map Prod.fst).any (· == e.1) = l.any (·.1 == e.1) := List.any_map
      rw [comers, List.map_append, List.map_singleton, eraseDups_concat, hany]
      rfl
    rw [hkeys, hcomers, contains_insertAll, ih]
    cases hold : r.contains e.1 <;> cases hearlier : l.any (·.1 == e.1) <;> simp [hold]

/-- The entries that a list comes to: its instances in the order in which they come first, each with
the value that comes last for it. -/
def settled (l : List (Instance K × V)) : List (Instance K × V) :=
  (comers l).filterMap fun k => (lastValue? l k).map (k, ·)

/-- Old entries get the last values in their places, and the new ones of the list come behind. -/
theorem toList_insertAll_eq (r : Registry K V) (l : List (Instance K × V)) :
    (r.insertAll l).toList =
      (r.toList.map fun e => (e.1, (lastValue? l e.1).getD e.2)) ++
        (settled l).filter (!r.contains ·.1) := by
  rw [toList_eq_filterMap, keys_insertAll, List.filterMap_append]
  congr 1
  · have hold : ∀ e ∈ r.toList, ((r.insertAll l).get? e.1).map (e.1, ·) =
        some (e.1, (lastValue? l e.1).getD e.2) := by
      intro e he
      rw [get?_insertAll, get?_eq_find?, r.keyed_toList.find?_eq_some_iff.mpr ⟨he, BEq.rfl⟩]
      cases lastValue? l e.1 <;> rfl
    change (r.toList.map Prod.fst).filterMap _ = _
    rw [List.filterMap_map, ← List.filterMap_eq_map]
    exact List.filterMap_congr hold
  · rw [settled, List.filter_filterMap, List.filterMap_filter]
    refine List.filterMap_congr fun k _ => ?_
    -- only what is new to the registry is looked at here
    cases hk : r.contains k with
    | true => cases lastValue? l k <;> simp [Option.filter, hk]
    | false =>
      rw [get?_insertAll, get?_of_absent hk, Option.or_none]
      cases lastValue? l k <;> simp [Option.filter, hk]

theorem toList_ofList_eq (id : Nat) (l : List (Instance K × V)) :
    (ofList id l).toList = settled l := by
  have hall : (settled l).filter (fun e => !({ id } : Registry K V).contains e.1) = settled l :=
    List.filter_eq_self.mpr fun _ _ => rfl
  exact (toList_insertAll_eq { id } l).trans hall

/-- There are as many entries as instances, those there before and those of the list together. -/
theorem size_insertAll (r : Registry K V) (l : List (Instance K × V)) :
    (r.insertAll l).size = ((r.toList ++ l).map (·.1.id)).toFinset.card := by
  have hall : ((r.insertAll l).toList.map (·.1.id)).toFinset =
      ((r.toList ++ l).map (·.1.id)).toFinset := by
    have hcontains (k : Instance K) : (∃ e ∈ (r.insertAll l).toList, e.1.id = k.id) ↔
        ∃ e ∈ r.toList ++ l, e.1.id = k.id := by
      have hiff := congrArg (· = true) (r.contains_insertAll l k)
      simpa [contains_eq_any, or_and_right, exists_or] using hiff
    ext i
    simp only [List.mem_toFinset, List.mem_map]
    constructor
    · rintro ⟨e, he, rfl⟩
      exact (hcontains e.1).mp ⟨e, he, rfl⟩
    · rintro ⟨e, he, rfl⟩
      exact (hcontains e.1).mpr ⟨e, he, rfl⟩
  rw [← hall, List.toFinset_card_of_nodup (r.insertAll l).nodup_ids, List.length_map]
  rfl

variable [BEq K] [BEq V] [Rendered K] [Rendered V]

/-- A registry that holds the entries of another answers as that one from then on. -/
theorem transcript_rebuilt {r : Registry K V} (h : r.Coherent) (id : Nat)
    (calls : List (Call K V)) :
    (ofList id r.toList).transcript calls = r.transcript calls := by
  have hlists : r.Lists ⟨r.toList⟩ := ⟨rfl, h⟩
  have hrebuilt : (ofList id r.toList).Lists ⟨r.toList⟩ :=
    ⟨toList_ofList r.keyed_toList id, coherent_ofList id r.toList⟩
  rw [hlists.transcript, hrebuilt.transcript]

/-- The registry has the instances of the list in the order in which they come first, each with the
value that comes last for it. -/
structure MadeOf (l : List (Instance K × V)) (made : Registry K V) : Prop where
  keys : made.keys = (l.map Prod.fst).eraseDups
  entries : made.toList = made.keys.filterMap fun k => (lastValue? l k).map (k, ·)
  get? : ∀ k, made.get? k = lastValue? l k
  last : ∀ before k v after, l = before ++ (k, v) :: after → (∀ e ∈ after, e.1.id ≠ k.id) →
    made.get? k = some v
  size : made.size = (l.map (·.1.id)).toFinset.card

/-- What comes of the registry `r` when it takes in the list that `made` is made of. -/
structure TakesIn (r : Registry K V) (l : List (Instance K × V)) (made : Registry K V) : Prop where
  entries : (r.insertAll l).toList =
    (r.toList.map fun e => (e.1, (lastValue? l e.1).getD e.2)) ++
      made.toList.filter (!r.contains ·.1)
  size : (r.insertAll l).size = ((r.toList ++ l).map (·.1.id)).toFinset.card
  again : ∀ l', (r.insertAll l).insertAll l' = r.insertAll (l ++ l')

/-- A registry made again from the entries of `r` cannot be told from `r`. -/
structure Rebuilt (r made : Registry K V) : Prop where
  entries : made.toList = r.toList
  transcript : ∀ calls, made.transcript calls = r.transcript calls

/-- A registry made of a list has its instances in the order in which they come first, each with the
value that comes last for it, whatever the instances hold and however often they come. Any other
registry that takes the list in keeps its own instances where they are, with new values for those in
the list, and has the others behind them as the list alone would have them. Two lists taken in one
after the other are as good as both in one, and a registry can be made again from what it holds. -/
theorem first_places_last_values (id other : Nat) (given : List (Instance K × V))
    (past : List (Call K V)) (l : List (Instance K × V)) :
    let r := (ofList other given).run past
    MadeOf l (ofList id l) ∧ r.TakesIn l (ofList id l) ∧ r.Rebuilt (ofList id r.toList) := by
  intro r
  have hmade : (ofList id l).toList = settled l := toList_ofList_eq id l
  have hkeys : (ofList id l).keys = comers l := by
    have hall : (comers l).filter (fun k => !({ id } : Registry K V).contains k) = comers l :=
      List.filter_eq_self.mpr fun _ _ => rfl
    exact (keys_insertAll { id } l).trans hall
  have hget (k : Instance K) : (ofList id l).get? k = lastValue? l k := by
    have hfound : (ofList id l).get? k = (lastValue? l k).or none := get?_insertAll { id } l k
    rw [hfound, Option.or_none]
  refine ⟨?made, ?taken, ?rebuilt⟩
  case made =>
    refine ⟨hkeys, ?_, hget, fun before k v after hl hlast => ?_, size_insertAll { id } l⟩
    · rw [hmade, hkeys]
      rfl
    · rw [hget, hl]
      exact Instance.lastValue?_of_last hlast
  case taken =>
    refine ⟨?_, r.size_insertAll l, fun l' => (r.insertAll_append l l').symm⟩
    rw [toList_insertAll_eq, hmade]
  case rebuilt =>
    exact ⟨toList_ofList r.keyed_toList id,
      transcript_rebuilt ((coherent_ofList other given).run past) id⟩

/-- Two instances of equal values, the first of which comes again after the second. -/
example :
    let a : Instance Nat := ⟨0, "a", 5⟩
    let b : Instance Nat := ⟨1, "b", 5⟩
    let c : Instance Nat := ⟨2, "c", 5⟩
    (ofList 0 [(a, 1), (b, 2), (a, 3)]).toList = [(a, 3), (b, 2)] ∧
      ((ofList 0 [(c, 9), (b, 8)]).insertAll [(a, 1), (b, 2), (a, 3)]).toList =
        [(c, 9), (b, 2), (a, 3)] := by
  cbv

end Registry

end WorkTracking
