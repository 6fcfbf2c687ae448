import WorkTracking.Proofs.MemberSet.Equality
import WorkTracking.Proofs.MemberSet.Simulation

/-!
Containment between sets. Over one vocabulary the bitmaps are compared word by word, over different
ones the members of one set are looked up in the other. In every run both ways find out the same:
whether each value of the one set is in the other.
-/
namespace WorkTracking

variable {V : Type} [DecidableEq V] [Hashable V]

namespace SetView

def Includes (s t : SetView V) : Prop := ∀ v, t.contains v = true → s.contains v = true

theorem Includes.trans {s t u : SetView V} (h : s.Includes t) (k : t.Includes u) : s.Includes u :=
  fun v hv => h v (k v hv)

theorem sameMembers_iff_includes {s t : SetView V} :
    s.SameMembers t ↔ s.Includes t ∧ t.Includes s := by
  constructor
  · intro h
    exact ⟨fun v hv => (h v).trans hv, fun v hv => (h v).symm.trans hv⟩
  · rintro ⟨hst, hts⟩ v
    rw [Bool.eq_iff_iff]
    exact ⟨hts v, hst v⟩

namespace Reliable

variable {digest : WordDigest} {s t : SetView V}

/-- Over one vocabulary each position of a set stands for one of its values. -/
theorem includes_iff_positions (ht : t.Reliable digest) (same : s.vocabulary = t.vocabulary) :
    s.Includes t ↔ ∀ p, t.members.contains p = true → s.members.contains p = true := by
  constructor
  · intro h p hp
    obtain ⟨v, hv⟩ := (ht.consistent.exists_ordinal_iff p).mpr (ht.grounded.bounded p hp)
    have hv : t.vocabulary.ordinal? v = some p := hv
    obtain ⟨i, hi, hs⟩ := contains_eq_true_iff.mp (h v (contains_eq_true_iff.mpr ⟨p, hv, hp⟩))
    rw [same, hv] at hi
    cases hi
    exact hs
  · intro h v hv
    obtain ⟨p, hp, ht⟩ := contains_eq_true_iff.mp hv
    exact contains_eq_true_iff.mpr ⟨p, same ▸ hp, h p ht⟩

theorem isSubset_iff_includes (ht : t.Reliable digest) (same : s.vocabulary = t.vocabulary) :
    t.members.isSubset s.members = true ↔ s.Includes t := by
  rw [Bitmap.isSubset_iff_contains, ht.includes_iff_positions same]

theorem containsAll_iff_includes (ht : t.Reliable digest)
    (same : s.sameVocabulary t = true → s.vocabulary = t.vocabulary) :
    s.containsAll t = true ↔ s.Includes t := by
  unfold containsAll
  split
  next h => exact ht.isSubset_iff_includes (same h)
  next => exact ht.all_contains_iff

end Reliable

end SetView

namespace MemberSet

/-! ### Additions -/

/-- The ways to add to the set `a` the members of `t`, a set that goes by the name `b`. -/
def Command.additions (a b : String) (t : SetView V) : List (Command V) :=
  [.insertMembers a b, .insertAll a t.toList, .extend a t.toList, .tryInsertAll a t.toList]

namespace Realizes

variable {digest : WordDigest} {w : Workspace V} {m : PlainSets V} {a b : String} {s t : SetView V}

theorem exists_plain (h : Realizes digest w m) (hs : w.view a = .ok s) :
    ∃ x, m.sets a = some x ∧ ∀ v, v ∈ x.members ↔ s.contains v = true := by
  obtain ⟨set, hset, rfl⟩ := Workspace.view_eq_ok hs
  rcases h.name_cases a with ⟨hnone, -⟩ | ⟨set', x, hset', hx, -, hmem⟩
  · rw [hset] at hnone
    cases hnone
  · rw [hset] at hset'
    cases hset'
    exact ⟨x, hx, hmem⟩

theorem exists_view (h : Realizes digest w m) {x : PlainSet V} (hx : m.sets a = some x) :
    ∃ s, w.view a = .ok s ∧ ∀ v, s.contains v = decide (v ∈ x.members) := by
  rcases h.name_cases a with ⟨-, hnone⟩ | ⟨set, y, hset, hy, -, hmem⟩
  · rw [hx] at hnone
    cases hnone
  · rw [hx] at hy
    cases hy
    refine ⟨w.viewOf set, Workspace.view_of_get? hset, fun v => ?_⟩
    rw [Bool.eq_iff_iff, ← hmem, decide_eq_true_iff]

/-- What plain sets do without misuse, the workspace does. -/
theorem perform_of_ok (h : Realizes digest w m) {c : Command V} {p : PlainOutcome V}
    (hp : m.perform c = .ok p) :
    ∃ o, w.perform digest c = .ok o ∧ Realizes digest o.workspace p.sets := by
  have hstep := h.perform c
  rw [hp] at hstep
  revert hstep
  cases w.perform digest c with
  | error e => exact False.elim
  | ok o => exact fun hstep => ⟨o, rfl, hstep.1⟩

/-- Plain sets take each of the additions as a union. -/
theorem perform_additions (h : Realizes digest w m) (ht : w.view b = .ok t) {x : Finset V}
    {y : PlainSet V} (hx : m.sets a = some ⟨false, x⟩) (hy : m.sets b = some y)
    (hmem : ∀ v, v ∈ y.members ↔ t.contains v = true) {c : Command V}
    (hc : c ∈ Command.additions a b t) :
    ∃ p, m.perform c = .ok p ∧ p.sets = m.put a ⟨false, x ∪ y.members⟩ := by
  have hlist : t.toList.toFinset = y.members := by
    have hreliable := h.sound.reliable ht
    ext v
    rw [List.mem_toFinset, SetView.mem_toList_iff hreliable.consistent hreliable.grounded, hmem]
  simp only [Command.additions, List.mem_cons, List.not_mem_nil, or_false] at hc
  rcases hc with rfl | rfl | rfl | rfl
  · simp only [PlainSets.perform, PlainSets.working, PlainSets.lookup, hx, hy]
    exact ⟨_, rfl, rfl⟩
  · simp only [PlainSets.perform, PlainSets.working, hx, hlist]
    exact ⟨_, rfl, rfl⟩
  · simp only [PlainSets.perform, PlainSets.working, hx, hlist]
    exact ⟨_, rfl, rfl⟩
  · simp only [PlainSets.perform, PlainSets.attempt, hx, hlist]
    exact ⟨_, rfl, rfl⟩

/-- After an addition the set has its old values and those of the other, which has kept its own,
also if the two are one set. -/
theorem contains_after_addition (h : Realizes digest w m) (hs : w.view a = .ok s)
    (ht : w.view b = .ok t) {set : WorkingSet} (hset : w.workingSet a = .ok set) {c : Command V}
    (hc : c ∈ Command.additions a b t) :
    ∃ o s' t', w.perform digest c = .ok o ∧ o.workspace.Sound digest ∧
      o.workspace.view a = .ok s' ∧ o.workspace.view b = .ok t' ∧
      (∀ v, s'.contains v = (s.contains v || t.contains v)) ∧
      ∀ v, t'.contains v = t.contains v := by
  obtain ⟨⟨frozen, x⟩, hx, hxmem⟩ := h.exists_plain hs
  obtain ⟨y, hy, hymem⟩ := h.exists_plain ht
  obtain rfl : frozen = false := by
    rw [Workspace.workingSet_eq] at hset
    rcases h.kind_cases a with ⟨hnone, -⟩ | ⟨_, _, -, hplain, -⟩ | ⟨_, _, hfrozen, -⟩
    · rw [hnone] at hset
      cases hset
    · rw [hx] at hplain
      cases hplain
      rfl
    · rw [hfrozen] at hset
      cases hset
  obtain ⟨p, hp, hsets⟩ := h.perform_additions ht hx hy hymem hc
  obtain ⟨o, ho, hafter⟩ := h.perform_of_ok hp
  rw [hsets] at hafter
  have hown : (m.put a ⟨false, x ∪ y.members⟩).sets a = some ⟨false, x ∪ y.members⟩ :=
    Function.update_self ..
  have hother : ∃ z, (m.put a ⟨false, x ∪ y.members⟩).sets b = some z ∧
      z.members = y.members := by
    by_cases hab : b = a
    · subst hab
      rw [hx] at hy
      cases hy
      exact ⟨_, hown, Finset.union_self x⟩
    · exact ⟨y, (Function.update_of_ne hab _ _).trans hy, rfl⟩
  obtain ⟨z, hz, hzmem⟩ := hother
  obtain ⟨s', hs', hs'mem⟩ := hafter.exists_view hown
  obtain ⟨t', ht', ht'mem⟩ := hafter.exists_view hz
  refine ⟨o, s', t', ho, hafter.sound, hs', ht', fun v => ?_, fun v => ?_⟩
  · rw [hs'mem, Bool.eq_iff_iff, Bool.or_eq_true, ← hxmem, ← hymem, decide_eq_true_iff,
      Finset.mem_union]
  · rw [ht'mem, hzmem, Bool.eq_iff_iff, decide_eq_true_iff, hymem]

end Realizes

namespace Workspace

variable {digest : WordDigest} {w : Workspace V}

theorem Sound.containsAll_iff (hw : w.Sound digest) {a b : String} {s t : SetView V}
    (hs : w.view a = .ok s) (ht : w.view b = .ok t) : s.containsAll t = true ↔ s.Includes t :=
  (hw.reliable ht).containsAll_iff_includes (hw.vocabulary_eq_of_same hs ht)

/-- What containment says of three sets in a workspace, and what adding the members of the second to
the first does to it. -/
structure ComparesMembers (digest : WordDigest) (w : Workspace V) (a b : String)
    (s t u : SetView V) : Prop where
  members : s.containsAll t = true ↔ ∀ v, t.contains v = true → s.contains v = true
  /-- Over one vocabulary, the comparison of bitmaps tells the same. -/
  positions : s.sameVocabulary t = true → t.members.isSubset s.members = s.containsAll t
  search : t.toList.all s.contains = s.containsAll t
  values : s.containsValues t.toList = s.containsAll t
  self : s.containsAll s = true
  trans : s.containsAll t = true → t.containsAll u = true → s.containsAll u = true
  both : (s.containsAll t && t.containsAll s) = (s == t)
  added : ∀ set, w.workingSet a = .ok set → ∀ command ∈ Command.additions a b t,
    ∃ o s' t', w.perform digest command = .ok o ∧
      o.workspace.view a = .ok s' ∧ o.workspace.view b = .ok t' ∧ s'.containsAll t' = true ∧
      (∀ v, s'.contains v = (s.contains v || t.contains v)) ∧ ∀ v, t'.contains v = t.contains v

/-- In every run, a set of whatever kind and vocabulary contains all of another just if each value
of the other is one of its own. So the comparison of bitmaps, the search for each member and the
test on the list of members never tell anything else; containment is reflexive and transitive, and
goes both ways just between equal sets. A working set to which the members of another have been
added contains all of it, and what it contained before. -/
theorem containment_compares_members (digest : WordDigest) (cs : List (Command V))
    {a b c : String} {s t u : SetView V}
    (hs : (({} : Workspace V).run digest cs).view a = .ok s)
    (ht : (({} : Workspace V).run digest cs).view b = .ok t)
    (hu : (({} : Workspace V).run digest cs).view c = .ok u) :
    (({} : Workspace V).run digest cs).ComparesMembers digest a b s t u := by
  have hrun : Realizes digest (({} : Workspace V).run digest cs) (({} : PlainSets V).run cs) :=
    (realizes_empty digest).run cs
  have hw : (({} : Workspace V).run digest cs).Sound digest := hrun.sound
  have hall : t.toList.all s.contains = s.containsAll t := by
    rw [Bool.eq_iff_iff, hw.containsAll_iff hs ht, (hw.reliable ht).all_contains_iff,
      SetView.Includes]
  constructor
  case members => exact hw.containsAll_iff hs ht
  case positions =>
    intro same
    rw [Bool.eq_iff_iff, hw.containsAll_iff hs ht]
    exact (hw.reliable ht).isSubset_iff_includes (hw.vocabulary_eq_of_same hs ht same)
  case search => exact hall
  case values => exact hall
  case self =>
    rw [hw.containsAll_iff hs hs]
    exact fun v hv => hv
  case trans =>
    rw [hw.containsAll_iff hs ht, hw.containsAll_iff ht hu, hw.containsAll_iff hs hu]
    exact .trans
  case both =>
    rw [Bool.eq_iff_iff, Bool.and_eq_true, hw.containsAll_iff hs ht, hw.containsAll_iff ht hs,
      hw.beq_iff hs ht]
    exact SetView.sameMembers_iff_includes.symm
  case added =>
    intro set hset command hcommand
    obtain ⟨o, s', t', ho, hafter, hs', ht', hunion, hkept⟩ :=
      hrun.contains_after_addition hs ht hset hcommand
    refine ⟨o, s', t', ho, hs', ht', ?_, hunion, hkept⟩
    rw [hafter.containsAll_iff hs' ht']
    intro v hv
    rw [hunion, ← hkept, hv, Bool.or_true]

/-- A frozen set contains all of a set over an older vocabulary that does not know each of its
values, until these are added. -/
theorem containment_compares_members_across :
    let w := ({} : Workspace Nat).run (fun _ => 0)
      [.newVocabulary "u", .newSet "a" "u", .insert "a" 5, .newVocabulary "x", .newSet "b" "x",
        .insertAll "b" [7, 5], .freeze "c" "b"]
    ∃ s t o s' t', w.view "a" = .ok s ∧ w.view "c" = .ok t ∧
      t.containsAll s = true ∧ s.containsAll t = false ∧ (s == t) = false ∧
      w.perform (fun _ => 0) (.insertMembers "a" "c") = .ok o ∧
      o.workspace.view "a" = .ok s' ∧ o.workspace.view "c" = .ok t' ∧
      s'.containsAll t' = true := by
  have hall := @containment_compares_members Nat _ _ (fun _ => 0)
    [.newVocabulary "u", .newSet "a" "u", .insert "a" 5, .newVocabulary "x", .newSet "b" "x",
      .insertAll "b" [7, 5], .freeze "c" "b"] "a" "c" "b" _ _ _ rfl rfl rfl
  obtain ⟨o, s', t', ho, hs', ht', hcontains, -⟩ :=
    hall.added _ rfl (.insertMembers "a" "c") (by simp [Command.additions])
  have hfalse : SetView.containsAll _ _ = false := hall.search.symm.trans (by cbv)
  refine ⟨_, _, o, s', t', rfl, rfl, by cbv, hfalse, ?_, ho, hs', ht', hcontains⟩
  rw [← hall.both, hfalse, Bool.false_and]

end Workspace

end MemberSet

end WorkTracking
