import WorkTracking.Proofs.Bitmap.Comparison
import WorkTracking.Proofs.MemberSet.Run

/-!
Equality of sets. Sets over one vocabulary are compared by their bitmaps, sets over different ones
by their sizes and by looking up the members of one in the other. In every run each of these ways
finds out the same: whether the two sets contain the same values.
-/
namespace WorkTracking

variable {V : Type} [DecidableEq V] [Hashable V]

namespace SetView

def SameMembers (s t : SetView V) : Prop := ∀ v, s.contains v = t.contains v

theorem SameMembers.symm {s t : SetView V} (h : s.SameMembers t) : t.SameMembers s :=
  fun v => (h v).symm

theorem SameMembers.trans {s t u : SetView V} (h : s.SameMembers t) (k : t.SameMembers u) :
    s.SameMembers u :=
  fun v => (h v).trans (k v)

namespace Reliable

variable {digest : WordDigest} {s t : SetView V}

/-- Over one vocabulary, the values of a set tell its positions. -/
theorem sameMembers_iff_positions (hs : s.Reliable digest) (ht : t.Reliable digest)
    (same : s.vocabulary = t.vocabulary) :
    s.SameMembers t ↔ ∀ p, s.members.contains p = t.members.contains p := by
  constructor
  · intro h p
    by_cases known : p < s.vocabulary.size
    · obtain ⟨v, hv⟩ := (hs.consistent.exists_ordinal_iff p).mpr known
      have hs' : s.vocabulary.ordinal? v = some p := hv
      have ht' : t.vocabulary.ordinal? v = some p := same ▸ hs'
      simpa [contains, hs', ht'] using h v
    · have hs' : s.members.contains p ≠ true := fun hp => known (hs.grounded.bounded p hp)
      have ht' : t.members.contains p ≠ true := fun hp =>
        known (same ▸ ht.grounded.bounded p hp)
      simp [hs', ht']
  · intro h v
    unfold contains
    rw [same]
    cases t.vocabulary.ordinal? v with
    | none => rfl
    | some p => exact h p

theorem all_contains_iff (ht : t.Reliable digest) :
    t.toList.all s.contains = true ↔ ∀ v, t.contains v = true → s.contains v = true := by
  simp only [List.all_eq_true, mem_toList_iff ht.consistent ht.grounded]

theorem perm_toList (hs : s.Reliable digest) (ht : t.Reliable digest) (h : s.SameMembers t) :
    s.toList.Perm t.toList := by
  rw [List.perm_ext_iff_of_nodup (nodup_toList hs.consistent hs.grounded)
    (nodup_toList ht.consistent ht.grounded)]
  intro v
  rw [mem_toList_iff hs.consistent hs.grounded, mem_toList_iff ht.consistent ht.grounded, h v]

theorem size_eq_of_sameMembers (hs : s.Reliable digest) (ht : t.Reliable digest)
    (h : s.SameMembers t) : s.size = t.size := by
  rw [← length_toList hs.grounded, ← length_toList ht.grounded]
  exact (hs.perm_toList ht h).length_eq

/-- Of two sets with equally many members, one cannot be a proper part of the other. -/
theorem sameMembers_of_size_eq (hs : s.Reliable digest) (ht : t.Reliable digest)
    (size : s.size = t.size) (part : ∀ v, t.contains v = true → s.contains v = true) :
    s.SameMembers t := by
  have hsub : t.toList ⊆ s.toList := by
    intro v hv
    rw [mem_toList_iff hs.consistent hs.grounded]
    apply part
    rwa [mem_toList_iff ht.consistent ht.grounded] at hv
  have hperm : t.toList.Perm s.toList := by
    apply (List.subperm_of_subset (nodup_toList ht.consistent ht.grounded) hsub).perm_of_length_le
    rw [length_toList hs.grounded, length_toList ht.grounded, size]
  intro v
  rw [Bool.eq_iff_iff, ← mem_toList_iff hs.consistent hs.grounded,
    ← mem_toList_iff ht.consistent ht.grounded]
  exact hperm.symm.mem_iff

/-- Equal sizes and containment one way are enough. -/
theorem size_and_all_iff (hs : s.Reliable digest) (ht : t.Reliable digest) :
    (s.size == t.size && t.toList.all s.contains) = true ↔ s.SameMembers t := by
  rw [Bool.and_eq_true, beq_iff_eq, ht.all_contains_iff]
  constructor
  · rintro ⟨size, part⟩
    exact hs.sameMembers_of_size_eq ht size part
  · intro h
    refine ⟨hs.size_eq_of_sameMembers ht h, fun v hv => ?_⟩
    rwa [h v]

/-- Over one vocabulary the bitmaps decide. -/
theorem members_beq_iff (hs : s.Reliable digest) (ht : t.Reliable digest)
    (same : s.vocabulary = t.vocabulary) :
    (s.members == t.members) = true ↔ s.SameMembers t := by
  rw [Bitmap.beq_iff_contains, hs.sameMembers_iff_positions ht same]

theorem equalMembers_iff (hs : s.Reliable digest) (ht : t.Reliable digest)
    (same : s.sameVocabulary t = true → s.vocabulary = t.vocabulary) :
    s.equalMembers t = true ↔ s.SameMembers t := by
  unfold equalMembers containsAll
  split
  next h => exact hs.members_beq_iff ht (same h)
  next => exact hs.size_and_all_iff ht

theorem beq_iff (hs : s.Reliable digest) (ht : t.Reliable digest)
    (same : s.sameVocabulary t = true → s.vocabulary = t.vocabulary) :
    (s == t) = true ↔ s.SameMembers t := by
  change s.equal t = true ↔ _
  unfold equal
  split
  next a b ha hb =>
    split
    next hne =>
      have hsize : s.size ≠ t.size := by
        simp only [size, ha, hb]
        exact hne
      exact iff_of_false Bool.false_ne_true fun h => hsize (hs.size_eq_of_sameMembers ht h)
    next => exact hs.equalMembers_iff ht same
  next => exact hs.equalMembers_iff ht same

end Reliable

end SetView

namespace MemberSet.Workspace

variable {digest : WordDigest} {w : Workspace V}

/-- A vocabulary is told by its number. -/
theorem Sound.vocabulary_eq_of_same (hw : w.Sound digest) {a b : String} {s t : SetView V}
    (hs : w.view a = .ok s) (ht : w.view b = .ok t) (h : s.sameVocabulary t = true) :
    s.vocabulary = t.vocabulary := by
  obtain ⟨x, -, rfl⟩ := view_eq_ok hs
  obtain ⟨y, -, rfl⟩ := view_eq_ok ht
  have hid : (w.vocabularyAt x.vocabulary).id = (w.vocabularyAt y.vocabulary).id := by
    simpa [SetView.sameVocabulary, viewOf] using h
  rw [hw.numbered, hw.numbered] at hid
  simp [viewOf, hid]

theorem Sound.beq_iff (hw : w.Sound digest) {a b : String} {s t : SetView V}
    (hs : w.view a = .ok s) (ht : w.view b = .ok t) : (s == t) = true ↔ s.SameMembers t :=
  (hw.reliable hs).beq_iff (hw.reliable ht) (hw.vocabulary_eq_of_same hs ht)

/-- What equality says of three sets, and what else could be asked to the same effect. -/
structure EqualByMembers (s t u : SetView V) : Prop where
  members : (s == t) = true ↔ ∀ v, s.contains v = t.contains v
  self : (s == s) = true
  symm : (s == t) = (t == s)
  trans : (s == t) = true → (t == u) = true → (s == u) = true
  /-- Over one vocabulary, the comparison of bitmaps tells the same. -/
  positions : s.sameVocabulary t = true → (s.members == t.members) = (s == t)
  size : s.size ≠ t.size → (s == t) = false
  search : (s.size == t.size && t.toList.all s.contains) = (s == t)

/-- In every run, sets of whatever kinds and vocabularies are equal just if they contain the same
values. So equality is an equivalence; and the bitmaps of sets over one vocabulary, the sizes of two
sets, and their sizes together with a search for the members of one in the other, never tell
anything else. -/
theorem equality_compares_members (digest : WordDigest) (cs : List (Command V)) {a b c : String}
    {s t u : SetView V} (hs : (({} : Workspace V).run digest cs).view a = .ok s)
    (ht : (({} : Workspace V).run digest cs).view b = .ok t)
    (hu : (({} : Workspace V).run digest cs).view c = .ok u) : EqualByMembers s t u := by
  have hw := (sound_empty (V := V) digest).run cs
  have hs' := hw.reliable hs
  have ht' := hw.reliable ht
  constructor
  case members => exact hw.beq_iff hs ht
  case self =>
    rw [hw.beq_iff hs hs]
    intro v
    rfl
  case symm =>
    rw [Bool.eq_iff_iff, hw.beq_iff hs ht, hw.beq_iff ht hs]
    exact ⟨.symm, .symm⟩
  case trans =>
    rw [hw.beq_iff hs ht, hw.beq_iff ht hu, hw.beq_iff hs hu]
    exact .trans
  case positions =>
    intro same
    rw [Bool.eq_iff_iff, hs'.members_beq_iff ht' (hw.vocabulary_eq_of_same hs ht same),
      hw.beq_iff hs ht]
  case size =>
    intro hne
    rw [Bool.eq_false_iff, ne_eq, hw.beq_iff hs ht]
    exact fun h => hne (hs'.size_eq_of_sameMembers ht' h)
  case search => rw [Bool.eq_iff_iff, hs'.size_and_all_iff ht', hw.beq_iff hs ht]

/-- Equality holds across vocabularies that give the values their ordinals in opposite orders. -/
theorem equality_compares_members_reordered :
    let w := ({} : Workspace Nat).run (fun _ => 0)
      [.newVocabulary "u", .newVocabulary "x", .newSet "a" "u", .newSet "b" "x",
        .insertAll "a" [5, 7], .insertAll "b" [7, 5], .freeze "c" "b"]
    ∃ s t u, w.view "a" = .ok s ∧ w.view "b" = .ok t ∧ w.view "c" = .ok u ∧
      s.toList = [5, 7] ∧ t.toList = [7, 5] ∧ (s == t) = true ∧ (s == u) = true := by
  have hall := @equality_compares_members Nat _ _ (fun _ => 0)
    [.newVocabulary "u", .newVocabulary "x", .newSet "a" "u", .newSet "b" "x",
      .insertAll "a" [5, 7], .insertAll "b" [7, 5], .freeze "c" "b"] "a" "b" "c" _ _ _ rfl rfl rfl
  refine ⟨_, _, _, rfl, rfl, rfl, by cbv, by cbv, ?_, ?_⟩
  · rw [← hall.search]
    cbv
  · apply hall.trans
    · rw [← hall.search]
      cbv
    · cbv

end MemberSet.Workspace

end WorkTracking
