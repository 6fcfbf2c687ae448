import WorkTracking.Proofs.MemberSet.History

/-!
Traversals of sets. The calls for a next member go through the list of a set from its head to its
end and then give nothing; in a run every position of a set has a value, so no member is left out.
While a set is traversed, commands on vocabularies and on other sets may come in between: the
traversal goes on as it began, and what it has left is what the set, read afresh, has left.
-/
namespace WorkTracking

variable {V : Type} [DecidableEq V] [Hashable V]

/-! ### Calls for the next member -/

namespace Traversal

/-- A traversal that has given nothing stays as it is. -/
theorem next_of_none {t rest : Traversal V} (h : t.next = (none, rest)) :
    rest.next = (none, rest) := by
  unfold next at h
  split at h
  next hup =>
    cases h
    simp [next, hup]
  next p hup =>
    split at h
    next => cases h
    next =>
      cases h
      simp [next]

/-- A call gives the first of the members to come, and leaves the others. -/
theorem next_eq (t : Traversal V) :
    t.next.1 = t.drain.1.head? ∧ t.next.2.drain.1 = t.drain.1.tail := by
  rcases h : t.next with ⟨_ | v, rest⟩
  · have hrest := drain_of_next_none (next_of_none h)
    simp [drain_of_next_none h, hrest]
  · simp [drain_of_next_some h]

theorem take_eq (t : Traversal V) (k : Nat) :
    (t.take k).1 = t.drain.1.take k ∧ (t.take k).2.drain.1 = t.drain.1.drop k := by
  induction k generalizing t with
  | zero => simp [take]
  | succ k ih =>
    rcases h : t.next with ⟨_ | v, rest⟩
    · have hrest := drain_of_next_none (next_of_none h)
      simp [take, h, drain_of_next_none h, hrest]
    · obtain ⟨hhead, htail⟩ := ih rest
      simp [take, h, drain_of_next_some h, hhead, htail]

/-- At its end a traversal gives nothing. -/
theorem next_drain (t : Traversal V) : t.drain.2.next.1 = none := by
  fun_induction drain t with
  | case1 t v rest h more last hdrain ih =>
    simp only [hdrain] at ih
    exact ih
  | case2 t rest h => rw [next_of_none h]

/-- Every position of the set has a value, and the upcoming one is such a position. -/
structure Resolves (t : Traversal V) : Prop where
  bounded : ∀ p, t.members.contains p = true → p < t.edition.size
  upcoming : ∀ p, t.upcoming = some p → t.members.contains p = true

namespace Resolves

theorem exists_value {t : Traversal V} (h : t.Resolves) {p : Nat} (hp : t.upcoming = some p) :
    ∃ v, t.edition.value? p = some v :=
  ⟨_, Array.getElem?_eq_getElem (h.bounded p (h.upcoming p hp))⟩

theorem start {e : Edition V} {b : Bitmap} (bounded : ∀ p, b.contains p = true → p < e.size) :
    (Traversal.start e b).Resolves where
  bounded := bounded
  upcoming p hp := by
    have hfirst := b.next?_isFirst 0
    rw [show b.next? 0 = some p from hp] at hfirst
    exact hfirst.2.1

theorem next {t : Traversal V} (h : t.Resolves) : t.next.2.Resolves := by
  unfold Traversal.next
  split
  next => exact h
  next p hup =>
    obtain ⟨v, hv⟩ := h.exists_value hup
    simp only [hv]
    refine ⟨h.bounded, fun q hq => ?_⟩
    have hfirst := t.members.next?_isFirst (p + 1)
    rw [show t.members.next? (p + 1) = some q from hq] at hfirst
    exact hfirst.2.1

end Resolves

end Traversal

/-! ### The order of members -/

namespace SetView

variable {digest : WordDigest} {s : SetView V}

/-- The members are listed by their ordinals, which are the positions. -/
theorem Reliable.map_ordinal?_toList (hs : s.Reliable digest) :
    s.toList.map s.vocabulary.ordinal? = s.members.positions.map some := by
  have hlist : ∀ ps : List Nat, (∀ p ∈ ps, p < s.vocabulary.size) →
      (ps.filterMap s.vocabulary.current.value?).map s.vocabulary.ordinal? = ps.map some := by
    intro ps
    induction ps with
    | nil => simp
    | cons p ps ih =>
      intro hps
      obtain ⟨v, hv⟩ := (hs.consistent.exists_ordinal_iff p).mpr (hps p (by simp))
      have hord : s.vocabulary.ordinal? v = some p := hv
      have hval := (hs.consistent v p).mp hv
      simp [List.filterMap_cons_some hval, hord, ih fun q hq => hps q (by simp [hq])]
  rw [toList_eq_filterMap hs.grounded]
  apply hlist
  intro p hp
  exact hs.grounded.bounded p (Bitmap.mem_positions.mp hp)

theorem Reliable.toList_ascending (hs : s.Reliable digest) :
    s.toList.Pairwise fun v w => ∃ i j, s.vocabulary.ordinal? v = some i ∧
      s.vocabulary.ordinal? w = some j ∧ i < j := by
  rw [← List.pairwise_map (f := s.vocabulary.ordinal?)
    (R := fun a b => ∃ i j, a = some i ∧ b = some j ∧ i < j), hs.map_ordinal?_toList,
    List.pairwise_map]
  apply s.members.positions_ascending.imp
  intro i j hij
  exact ⟨i, j, rfl, rfl, hij⟩

theorem resolves_traverse (hs : s.set.Grounded digest s.vocabulary) : s.traverse.Resolves :=
  Traversal.Resolves.start hs.bounded

end SetView

/-! ### Commands in between -/

namespace MemberSet

/-- What may happen while a set is traversed. -/
inductive Move (V : Type) where
  | next
  | command (c : Command V)

/-- A traversal under way, and the workspace meanwhile. -/
structure Walk (V : Type) [BEq V] [Hashable V] where
  workspace : Workspace V
  traversal : Traversal V

namespace Walk

def move (digest : WordDigest) (x : Walk V) : Move V → Walk V
  | .next => { x with traversal := x.traversal.next.2 }
  | .command c => { x with workspace := x.workspace.step digest c }

def run (digest : WordDigest) (x : Walk V) (ms : List (Move V)) : Walk V := ms.foldl (move digest) x

/-- What the calls for a next member give. -/
def yields (digest : WordDigest) (x : Walk V) : List (Move V) → List (Option V)
  | [] => []
  | .next :: ms => x.traversal.next.1 :: (x.move digest .next).yields digest ms
  | .command c :: ms => (x.move digest (.command c)).yields digest ms

/-- The number of calls for a next member. -/
def calls : List (Move V) → Nat
  | [] => 0
  | .next :: ms => calls ms + 1
  | .command _ :: ms => calls ms

/-- The set `s` is still the one that is traversed. It lists `members`, and all but the first `k`
of them are to come. -/
structure Follows (digest : WordDigest) (s : String) (set : MemberSet) (members : List V) (k : Nat)
    (x : Walk V) : Prop where
  sound : x.workspace.Sound digest
  named : x.workspace.sets.get? s = some set
  list : (x.workspace.viewOf set).toList = members
  left : x.traversal.drain.1 = members.drop k
  resolves : x.traversal.Resolves

namespace Follows

variable {digest : WordDigest} {s : String} {set : MemberSet} {members : List V} {k : Nat}
  {x : Walk V}

theorem next (h : Follows digest s set members k x) :
    x.traversal.next.1 = members[k]? ∧
      Follows digest s set members (k + 1) (x.move digest .next) := by
  obtain ⟨hgiven, hrest⟩ := x.traversal.next_eq
  rw [h.left] at hgiven hrest
  rw [List.tail_drop] at hrest
  refine ⟨by simpa using hgiven, h.sound, h.named, h.list, hrest, h.resolves.next⟩

theorem command (h : Follows digest s set members k x) {c : Command V} (hc : c.target? ≠ some s) :
    Follows digest s set members k (x.move digest (.command c)) where
  sound := h.sound.step c
  named := by
    have hsame : (x.workspace.step digest c).sets.get? s = x.workspace.sets.get? s :=
      Workspace.get?_sets_step_of_ne hc
    exact hsame.trans h.named
  list := by
    have hgrown := Workspace.vocabularyAt_step h.sound c set.vocabulary
    have hlist := SetView.toList_afterAll (h.sound.consistent set.vocabulary)
      (h.sound.grounded s set h.named) (x.workspace.registrations c set.vocabulary)
    rw [← h.list]
    unfold Workspace.viewOf
    simp only [move, hgrown, hlist]
  left := h.left
  resolves := h.resolves

theorem run (h : Follows digest s set members k x) {ms : List (Move V)}
    (others : ∀ c, Move.command c ∈ ms → c.target? ≠ some s) :
    Follows digest s set members (k + calls ms) (x.run digest ms) ∧
      x.yields digest ms = (List.range' k (calls ms)).map (members[·]?) := by
  induction ms generalizing k x with
  | nil => exact ⟨h, rfl⟩
  | cons m ms ih =>
    have hlater : ∀ c, Move.command c ∈ ms → c.target? ≠ some s := fun c hc =>
      others c (List.mem_cons_of_mem m hc)
    cases m with
    | next =>
      obtain ⟨hgiven, hnext⟩ := h.next
      obtain ⟨hrun, hyields⟩ := ih hnext hlater
      constructor
      · have hsum : k + calls (.next :: ms) = k + 1 + calls ms := by
          simp only [calls]
          omega
        rw [hsum]
        exact hrun
      · simp only [yields, calls, List.range'_succ, List.map_cons, hgiven, hyields]
    | command c => exact ih (h.command (others c (by simp))) hlater

end Follows

end Walk

namespace Workspace

variable {digest : WordDigest} {w : Workspace V}

theorem Sound.follows (hw : w.Sound digest) {s : String} {set : MemberSet}
    (hset : w.sets.get? s = some set) :
    Walk.Follows digest s set (w.viewOf set).toList 0 ⟨w, (w.viewOf set).traverse⟩ where
  sound := hw
  named := hset
  list := rfl
  left := rfl
  resolves := SetView.resolves_traverse (hw.grounded s set hset)

/-- The reply to a walk: the members from the first to the last, whatever is registered after the
first `k` of them, and then nothing. -/
theorem perform_walkWhileGrowing {s : String} {view : SetView V} (h : w.view s = .ok view) (k : Nat)
    (vs : List V) :
    (w.perform digest (.walkWhileGrowing s k vs)).map Outcome.reply =
      .ok (.walk (view.toList.take k) (view.toList.drop k) none) := by
  obtain ⟨hhead, htail⟩ := view.traverse.take_eq k
  have hend := (view.traverse.take k).2.next_drain
  simp only [perform, h]
  change Except.ok (Reply.walk _ _ _) = _
  rw [hhead, htail, hend]
  rfl

/-- What the set `view`, by the name `s`, lists in the workspace `w`, and what a traversal of it that
is begun there gives in the course of the moves `ms`. -/
structure YieldsMembers [Rendered V] (digest : WordDigest) (w : Workspace V) (s : String)
    (view : SetView V) (ms : List (Move V)) : Prop where
  mem_iff : ∀ v, v ∈ view.toList ↔ view.contains v = true
  nodup : view.toList.Nodup
  length : view.toList.length = view.size
  ascending : view.toList.Pairwise fun v v' => ∃ i j, view.vocabulary.ordinal? v = some i ∧
    view.vocabulary.ordinal? v' = some j ∧ i < j
  plain : view.plain = Text.bracketed (view.toList.map Rendered.plain)
  quoted : view.quoted = Text.braced (view.toList.map Rendered.quoted)
  yields : Walk.yields digest ⟨w, view.traverse⟩ ms =
    (List.range (Walk.calls ms)).map (view.toList[·]?)
  left : (Walk.run digest ⟨w, view.traverse⟩ ms).traversal.drain.1 =
    view.toList.drop (Walk.calls ms)
  listed : ∃ later, (Walk.run digest ⟨w, view.traverse⟩ ms).workspace.view s = .ok later ∧
    later.toList = view.toList
  bounded : ∀ p, view.members.contains p = true → p < view.traverse.edition.size
  /-- A traversal never stands at a position without a value. -/
  resolved : ∀ p, (Walk.run digest ⟨w, view.traverse⟩ ms).traversal.upcoming = some p →
    ∃ v, (Walk.run digest ⟨w, view.traverse⟩ ms).traversal.edition.value? p = some v
  walked : ∀ k vs, (w.perform digest (.walkWhileGrowing s k vs)).map Outcome.reply =
    .ok (.walk (view.toList.take k) (view.toList.drop k) none)

/-- In every run, a set lists each value that it contains once, by strictly ascending ordinals, as
many as its size says; so do its texts. The calls for a next member give the members of that list
one by one and then nothing for ever, whatever else is done with the workspace in between: nothing
that is registered meanwhile shows in them, nor in a list made afresh. No position is without a
value in the edition that was current at the start. -/
theorem traversal_yields_members [Rendered V] (digest : WordDigest) (cs : List (Command V))
    {s : String} {view : SetView V}
    (h : (({} : Workspace V).run digest cs).view s = .ok view) {ms : List (Move V)}
    (others : ∀ c, Move.command c ∈ ms → c.target? ≠ some s) :
    (({} : Workspace V).run digest cs).YieldsMembers digest s view ms := by
  have hw : (({} : Workspace V).run digest cs).Sound digest := (sound_empty digest).run cs
  have hview := hw.reliable h
  obtain ⟨set, hset, rfl⟩ := view_eq_ok h
  obtain ⟨hx, hyields⟩ := (hw.follows hset).run others
  simp only [Nat.zero_add] at hx
  constructor
  case mem_iff => exact fun v => SetView.mem_toList_iff hview.consistent hview.grounded
  case nodup => exact SetView.nodup_toList hview.consistent hview.grounded
  case length => exact SetView.length_toList hview.grounded
  case ascending => exact hview.toList_ascending
  case plain => rfl
  case quoted => rfl
  case yields =>
    rw [List.range_eq_range']
    exact hyields
  case left => exact hx.left
  case listed =>
    refine ⟨(Walk.run digest ⟨_, _⟩ ms).workspace.viewOf set, ?_, hx.list⟩
    rw [view_eq, hx.named]
    rfl
  case bounded => exact hview.grounded.bounded
  case resolved => exact fun p => hx.resolves.exists_value
  case walked => exact perform_walkWhileGrowing h

/-- Two members are met, and two calls come to nothing, while four more values are registered. -/
theorem traversal_yields_members_growing :
    let w := ({} : Workspace Nat).run (fun _ => 0)
      [.newVocabulary "u", .newSet "a" "u", .newSet "b" "u", .insert "b" 3, .insertAll "a" [5, 7]]
    ∃ view, w.view "a" = .ok view ∧
      Walk.yields (fun _ => 0) ⟨w, view.traverse⟩
        [.next, .command (.register "u" 9), .command (.insert "b" 4), .next,
          .command (.registerAll "u" [1, 2]), .next, .next] = [some 5, some 7, none, none] := by
  let _ : Rendered Nat := ⟨toString, toString⟩
  have hall := @traversal_yields_members Nat _ _ _ (fun _ => 0)
    [.newVocabulary "u", .newSet "a" "u", .newSet "b" "u", .insert "b" 3, .insertAll "a" [5, 7]]
    "a" _ rfl
    [.next, .command (.register "u" 9), .command (.insert "b" 4), .next,
      .command (.registerAll "u" [1, 2]), .next, .next]
    (by simp [Command.target?])
  refine ⟨_, rfl, hall.yields.trans ?_⟩
  cbv

end Workspace

end MemberSet

end WorkTracking
