import WorkTracking.Proofs.MemberSet.Equality
import WorkTracking.Proofs.MemberSet.History

/-!
Fingerprints. Sets that hold the same positions have the same fingerprint, whatever their kinds and
their pasts, and so have equal sets over one vocabulary. A frozen set keeps the size and the
fingerprint of the working set it was made from: they are those of its bitmap at any time, whatever
has become of that working set and of the vocabulary.
-/
namespace WorkTracking

variable {V : Type} [DecidableEq V] [Hashable V]

namespace SetView.Reliable

variable {digest : WordDigest} {s t : SetView V}

theorem fingerprint_eq_of_contains_eq (hs : s.Reliable digest) (ht : t.Reliable digest)
    (h : ∀ p, s.members.contains p = t.members.contains p) :
    s.set.fingerprint digest = t.set.fingerprint digest := by
  rw [hs.grounded.fingerprint_eq, ht.grounded.fingerprint_eq]
  exact Bitmap.fingerprint_eq_of_contains_eq h digest

theorem fingerprint_eq_of_sameMembers (hs : s.Reliable digest) (ht : t.Reliable digest)
    (same : s.vocabulary = t.vocabulary) (h : s.SameMembers t) :
    s.set.fingerprint digest = t.set.fingerprint digest :=
  hs.fingerprint_eq_of_contains_eq ht ((hs.sameMembers_iff_positions ht same).mp h)

end SetView.Reliable

namespace MemberSet

/-- The name under which a command makes a set, in place of one that went by it. -/
def Command.makes? : Command V → Option String
  | .newSet s _ | .copySet s _ | .freeze s _ => some s
  | _ => none

namespace Workspace

variable {digest : WordDigest} {w : Workspace V}

/-! ### Frozen sets in a run -/

/-- What is asked of a frozen set, or done to any other set, leaves it under its name. -/
theorem get?_sets_step_of_frozen {c : Command V} {f : String} {x : FrozenSet}
    (hx : w.sets.get? f = some (.frozen x)) (hc : c.makes? ≠ some f) :
    (w.step digest c).sets.get? f = some (.frozen x) := by
  generalize hy : (w.step digest c).sets = y
  have hstep : SetsEffect digest w c y := hy ▸ w.step_sets c
  have hother {t : String} (ht : t ≠ f) (set : MemberSet) :
      (w.sets.insert t set).get? f = some (.frozen x) := by
    rw [OrderedMap.get?_insert, if_neg (by simpa using ht), hx]
  cases hstep with
  | kept => exact hx
  | made t u v => exact hother (fun h => hc (congrArg some h)) _
  | copied t r set h => exact hother (fun h => hc (congrArg some h)) _
  | frozen t r set h => exact hother (fun h => hc (congrArg some h)) _
  | changed _ t target old new h =>
    refine hother (fun htf => ?_) _
    rw [htf, hx] at h
    cases h

theorem get?_sets_run_of_frozen {cs : List (Command V)} {f : String} {x : FrozenSet}
    (hx : w.sets.get? f = some (.frozen x)) (hcs : ∀ c ∈ cs, c.makes? ≠ some f) :
    (w.run digest cs).sets.get? f = some (.frozen x) := by
  induction cs generalizing w with
  | nil => exact hx
  | cons c cs ih =>
    have hstep : (w.step digest c).sets.get? f = some (.frozen x) :=
      get?_sets_step_of_frozen hx (hcs c (List.mem_cons_self ..))
    exact ih hstep fun d hd => hcs d (List.mem_cons_of_mem c hd)

/-- A frozen set has been there before, under this or another name, or is made from a working
set. -/
theorem frozen_of_step {c : Command V} {a : String} {x : FrozenSet}
    (ha : (w.step digest c).sets.get? a = some (.frozen x)) :
    (∃ b, w.sets.get? b = some (.frozen x)) ∨
      ∃ s set, c = .freeze a s ∧ w.sets.get? s = some (.working set) ∧ x = set.freeze digest := by
  generalize hy : (w.step digest c).sets = y at ha
  have hstep : SetsEffect digest w c y := hy ▸ w.step_sets c
  have hnew {t : String} {set : MemberSet}
      (h : (w.sets.insert t set).get? a = some (.frozen x)) :
      (t = a ∧ set = .frozen x) ∨ w.sets.get? a = some (.frozen x) := by
    rw [OrderedMap.get?_insert] at h
    split at h
    next hta => exact .inl ⟨by simpa using hta, Option.some.inj h⟩
    next => exact .inr h
  cases hstep with
  | kept => exact .inl ⟨a, ha⟩
  | made t u v =>
    rcases hnew ha with ⟨-, hset⟩ | hold
    · cases hset
    · exact .inl ⟨a, hold⟩
  | copied t r set h =>
    rcases hnew ha with ⟨-, rfl⟩ | hold
    · exact .inl ⟨r, h⟩
    · exact .inl ⟨a, hold⟩
  | frozen t s set h =>
    rcases hnew ha with ⟨rfl, hset⟩ | hold
    · cases hset
      exact .inr ⟨s, set, rfl, h, rfl⟩
    · exact .inl ⟨a, hold⟩
  | changed _ t target old new h =>
    rcases hnew ha with ⟨-, hset⟩ | hold
    · cases hset
    · exact .inl ⟨a, hold⟩

/-- Every frozen set of a run goes back to a command that made it from a working set. -/
theorem exists_freeze {cs : List (Command V)} {a : String} {x : FrozenSet}
    (h : (({} : Workspace V).run digest cs).sets.get? a = some (.frozen x)) :
    ∃ before f s after set, cs = before ++ .freeze f s :: after ∧
      (({} : Workspace V).run digest before).sets.get? s = some (.working set) ∧
      x = set.freeze digest := by
  induction cs using List.reverseRecOn generalizing a with
  | nil => simp [run] at h
  | append_singleton cs c ih =>
    rw [run_snoc] at h
    rcases frozen_of_step h with ⟨b, hb⟩ | ⟨s, set, rfl, hset, hx⟩
    · obtain ⟨before, f, s, after, set, rfl, hset, hx⟩ := ih hb
      exact ⟨before, f, s, after ++ [c], set, by simp, hset, hx⟩
    · exact ⟨cs, a, s, [], set, rfl, hset, hx⟩

theorem get?_sets_freeze {a : String} {set : WorkingSet} (h : w.sets.get? a = some (.working set))
    (f : String) :
    (w.step digest (.freeze f a)).sets.get? f = some (.frozen (set.freeze digest)) := by
  have hperform : w.perform digest (.freeze f a) = .ok
      { workspace := w.setSet f (.frozen (set.freeze digest))
        reply := .number (set.freeze digest).size } := by
    rw [perform, workingSet_eq, h]
    rfl
  rw [step_of_ok hperform, get?_setSet, if_pos BEq.rfl]

/-- What the size and the fingerprint of a set that goes by the name `a` after the commands `cs`
come from, and how long they stay. -/
structure FingerprintFollows (digest : WordDigest) (cs : List (Command V)) (a : String)
    (s : SetView V) : Prop where
  positions : ∀ ds b t, (({} : Workspace V).run digest ds).view b = .ok t →
    (∀ p, s.members.contains p = t.members.contains p) →
    s.set.fingerprint digest = t.set.fingerprint digest
  equal : ∀ b t, (({} : Workspace V).run digest cs).view b = .ok t → s.sameVocabulary t = true →
    (s == t) = true → s.set.fingerprint digest = t.set.fingerprint digest
  size : s.size = s.members.count
  fingerprint : s.set.fingerprint digest = s.members.fingerprint digest
  /-- A frozen set goes back to a working set, which had the same of both. -/
  source : ∀ x, s.set = .frozen x → ∃ before f source after set,
    cs = before ++ .freeze f source :: after ∧
    (({} : Workspace V).run digest before).workingSet source = .ok set ∧
    s.members = set.members ∧ s.size = (working set).size ∧
    s.set.fingerprint digest = (working set).fingerprint digest
  /-- What is frozen now is found later as it is now. -/
  frozen : ∀ set, (({} : Workspace V).run digest cs).workingSet a = .ok set →
    ∀ f later, (∀ c ∈ later, c.makes? ≠ some f) →
    ∃ t, ((({} : Workspace V).run digest cs).run digest (.freeze f a :: later)).view f = .ok t ∧
      t.members = s.members ∧ t.size = s.size ∧
      t.set.fingerprint digest = s.set.fingerprint digest

/-- In every run, whatever the digest, sets with the same positions have the same fingerprint, also
sets of other runs and moments; and so have equal sets over one vocabulary. The size and fingerprint
of a set are those of its bitmap; a frozen set has them from the working set it was made from, and
keeps them as long as nothing else is made under its name. -/
theorem fingerprints_follow_positions (digest : WordDigest) (cs : List (Command V)) {a : String}
    {s : SetView V} (hs : (({} : Workspace V).run digest cs).view a = .ok s) :
    FingerprintFollows digest cs a s := by
  have hw : (({} : Workspace V).run digest cs).Sound digest := (sound_empty digest).run cs
  have hview := hw.reliable hs
  constructor
  case positions =>
    intro ds b t ht h
    exact hview.fingerprint_eq_of_contains_eq (((sound_empty digest).run ds).reliable ht) h
  case equal =>
    intro b t ht same h
    exact hview.fingerprint_eq_of_sameMembers (hw.reliable ht)
      (hw.vocabulary_eq_of_same hs ht same) ((hw.beq_iff hs ht).mp h)
  case size => exact hview.grounded.size_eq
  case fingerprint => exact hview.grounded.fingerprint_eq
  case source =>
    intro x hx
    obtain ⟨y, hy, rfl⟩ := view_eq_ok hs
    obtain rfl : y = .frozen x := hx
    obtain ⟨before, f, source, after, set, hcs, hset, rfl⟩ := exists_freeze hy
    refine ⟨before, f, source, after, set, hcs, ?_, rfl, rfl, rfl⟩
    rw [workingSet_eq, hset]
  case frozen =>
    intro set hset f later hlater
    have hget := get?_of_workingSet hset
    obtain rfl : (({} : Workspace V).run digest cs).viewOf (.working set) = s := by
      rw [view_of_get? hget] at hs
      exact Except.ok.inj hs
    have hfrozen : ((({} : Workspace V).run digest cs).step digest (.freeze f a)).sets.get? f =
        some (.frozen (set.freeze digest)) := get?_sets_freeze hget f
    rw [run_cons]
    exact ⟨_, view_of_get? (get?_sets_run_of_frozen hfrozen hlater), rfl, rfl, rfl⟩

/-- A set without words and a frozen one that has kept a word of zeros have the same fingerprint,
also under a digest that counts words. -/
theorem fingerprints_follow_positions_emptied :
    let w := ({} : Workspace Nat).run (fun ws => .ofNat ws.length)
      [.newVocabulary "u", .newSet "a" "u", .newSet "b" "u", .insert "b" 5, .erase "b" 5,
        .freeze "c" "b", .insert "b" 7]
    ∃ s t, w.view "a" = .ok s ∧ w.view "c" = .ok t ∧ s.members.words = #[] ∧
      t.members.words = #[0] ∧
      s.set.fingerprint (fun ws => .ofNat ws.length) =
        t.set.fingerprint (fun ws => .ofNat ws.length) := by
  refine ⟨_, _, rfl, rfl, by cbv, by cbv, ?_⟩
  have hall := @fingerprints_follow_positions Nat _ _ (fun ws => .ofNat ws.length)
    [.newVocabulary "u", .newSet "a" "u", .newSet "b" "u", .insert "b" 5, .erase "b" 5,
      .freeze "c" "b", .insert "b" 7] "a" _ rfl
  apply hall.equal "c" _ rfl
  · cbv
  · cbv

end Workspace

end MemberSet

end WorkTracking
