import Mathlib.Tactic.TFAE
import WorkTracking.Proofs.Bitmap.Comparison
import WorkTracking.Proofs.Bitmap.Positions

/-!
Bitmaps in the course of their histories. A shelf holds bitmaps made with any room, each changed at
any time or copied to go its own way from then on, so that they come to have any number of words.
However two of them came about, equality, inclusion and the significant words tell which positions
they have, and nothing else.
-/
namespace WorkTracking.Bitmap

/-- Positions are numbers of one machine word, below this one. -/
def positionLimit : Nat := 18446744073709551616

inductive Change where
  | insert (p : Nat)
  | erase (p : Nat)
  | clear

def after (b : Bitmap) : Change → Bitmap
  | .insert p => (b.insert p).bitmap
  | .erase p => (b.erase p).bitmap
  | .clear => b.clear

def Change.Fits : Change → Prop
  | .insert p | .erase p => p < positionLimit
  | .clear => True

/-! ### Room for positions -/

/-- No word is for positions that a machine word cannot tell. -/
def Addressable (b : Bitmap) : Prop := 64 * b.words.size ≤ positionLimit

theorem addressable_blank {n : Nat} (hn : n < positionLimit) : (blank n).Addressable := by
  simp only [Addressable, blank, Array.size_replicate, positionLimit] at hn ⊢
  omega

theorem size_insert (b : Bitmap) (p : Nat) :
    (b.insert p).bitmap.words.size = max b.words.size (p / 64 + 1) := by
  simp only [insert, grown, Array.size_setIfInBounds, Array.size_append, Array.size_replicate]
  omega

theorem size_erase (b : Bitmap) (p : Nat) : (b.erase p).bitmap.words.size = b.words.size := by
  unfold erase
  split
  · rfl
  · exact Array.size_setIfInBounds

theorem size_clear (b : Bitmap) : b.clear.words.size = b.words.size := Array.size_map

theorem Addressable.after {b : Bitmap} (h : b.Addressable) {c : Change} (hc : c.Fits) :
    (b.after c).Addressable := by
  unfold Addressable at h ⊢
  cases c with
  | insert p =>
    simp only [Change.Fits, positionLimit] at hc h ⊢
    simp only [Bitmap.after, size_insert]
    omega
  | erase p => rwa [Bitmap.after, size_erase]
  | clear => rwa [Bitmap.after, size_clear]

theorem Addressable.contains_eq_false {b : Bitmap} (h : b.Addressable) {p : Nat}
    (hp : positionLimit ≤ p) : b.contains p = false := by
  apply contains_of_word_size_le
  unfold Addressable at h
  omega

/-- What holds of all positions there can be holds of all others as well. -/
theorem Addressable.forall_contains_iff {a b : Bitmap} (ha : a.Addressable) (hb : b.Addressable)
    {R : Bool → Bool → Prop} (hR : R false false) :
    (∀ p < positionLimit, R (a.contains p) (b.contains p)) ↔
      ∀ p, R (a.contains p) (b.contains p) := by
  refine ⟨fun h p => ?_, fun h p _ => h p⟩
  by_cases hp : p < positionLimit
  · exact h p hp
  · rw [ha.contains_eq_false (Nat.not_lt.mp hp), hb.contains_eq_false (Nat.not_lt.mp hp)]
    exact hR

/-! ### Shelves -/

/-- What can be done with the bitmaps of a shelf, which are told by number. -/
inductive Shelving where
  | blank (n : Nat)
  | change (i : Nat) (c : Change)
  | copy (i : Nat)

def Shelving.Fits : Shelving → Prop
  | blank n => n < positionLimit
  | change _ c => c.Fits
  | copy _ => True

/-- New bitmaps and copies come last. A number that is none of the shelf's does nothing. -/
def shelve (shelf : List Bitmap) : Shelving → List Bitmap
  | .blank n => shelf ++ [blank n]
  | .change i c => shelf.modify i (·.after c)
  | .copy i => shelf ++ shelf[i]?.toList

theorem mem_shelve {shelf : List Bitmap} {c : Shelving} {b : Bitmap} (hb : b ∈ shelve shelf c) :
    b ∈ shelf ∨ (∃ n, c = .blank n ∧ b = blank n) ∨
      ∃ i d, c = .change i d ∧ ∃ old ∈ shelf, b = old.after d := by
  cases c with
  | blank n =>
    rcases List.mem_append.mp hb with hb | hb
    · exact .inl hb
    · exact .inr (.inl ⟨n, rfl, List.mem_singleton.mp hb⟩)
  | change i d =>
    obtain ⟨j, hj⟩ := List.mem_iff_getElem?.mp hb
    rw [shelve, List.getElem?_modify] at hj
    obtain ⟨old, hold, rfl⟩ := Option.map_eq_some_iff.mp hj
    have hmem := List.mem_of_getElem? hold
    split
    · exact .inr (.inr ⟨i, d, rfl, old, hmem, rfl⟩)
    · exact .inl hmem
  | copy i =>
    left
    rcases List.mem_append.mp hb with hb | hb
    · exact hb
    · exact List.mem_of_getElem? (Option.mem_toList.mp hb)

/-- The bitmaps there are after all that was done, from none at the start. -/
def shelf (cs : List Shelving) : List Bitmap := cs.foldl shelve []

theorem addressable_of_mem_shelf {cs : List Shelving} (hcs : ∀ c ∈ cs, c.Fits) {b : Bitmap}
    (hb : b ∈ shelf cs) : b.Addressable := by
  induction cs using List.reverseRecOn generalizing b with
  | nil => cases hb
  | append_singleton cs c ih =>
    have hearlier : ∀ {a}, a ∈ shelf cs → a.Addressable :=
      ih fun d hd => hcs d (List.mem_append_left _ hd)
    have hlast : c.Fits := hcs c (by simp)
    have hstep : shelf (cs ++ [c]) = shelve (shelf cs) c := by simp [shelf]
    rw [hstep] at hb
    rcases mem_shelve hb with hold | ⟨n, rfl, rfl⟩ | ⟨i, d, rfl, old, hold, rfl⟩
    · exact hearlier hold
    · exact addressable_blank hlast
    · exact (hearlier hold).after hlast

/-! ### Comparison -/

/-- The words of a bitmap are the significant ones, followed by zeros. -/
theorem exists_words_eq (b : Bitmap) :
    ∃ k, b.words.toList = b.significant ++ List.replicate k 0 := by
  refine ⟨(b.words.toList.rtakeWhile (· == 0)).length, ?_⟩
  have hzero : b.words.toList.rtakeWhile (· == 0) =
      List.replicate (b.words.toList.rtakeWhile (· == 0)).length 0 := by
    rw [List.eq_replicate_iff]
    exact ⟨rfl, fun w hw => by simpa using List.mem_rtakeWhile_imp hw⟩
  rw [← hzero, significant_eq_rdropWhile, List.rdropWhile_append_rtakeWhile]

theorem isEmpty_iff_beq_blank (b : Bitmap) (n : Nat) :
    (blank n == b) = true ↔ b.isEmpty = true := by
  rw [beq_iff_contains, isEmpty_iff]
  simp only [contains_blank]
  exact forall_congr' fun p => eq_comm

/-- What a hasher comes to, by the way in which it takes in one word: it gets the fingerprint of the
bitmap and nothing else. -/
def hashInto {H : Type} (write : H → UInt64 → H) (digest : WordDigest) (b : Bitmap) (h : H) : H :=
  write h (b.fingerprint digest)

/-- Bitmaps of one shelf, whatever was done to each of them, are equal just if they have the same
positions, and just if each is a subset of the other. Their significant words, which are all words
but the zeros at the end, say no less and no more than that, and a hasher is told nothing else.
Room alone adds nothing to a bitmap. -/
theorem comparisons_tell_positions (cs : List Shelving) (hcs : ∀ c ∈ cs, c.Fits) {a b : Bitmap}
    (ha : a ∈ shelf cs) (hb : b ∈ shelf cs) :
    [(a == b) = true, ∀ p < positionLimit, a.contains p = b.contains p,
      a.isSubset b = true ∧ b.isSubset a = true, a.significant = b.significant].TFAE ∧
    (a.isSubset b = true ↔ ∀ p < positionLimit, a.contains p = true → b.contains p = true) ∧
    (∃ k, a.words.toList = a.significant ++ List.replicate k 0 ∧
      a.significant.getLast? ≠ some 0) ∧
    ((a == b) = true → ∀ digest : WordDigest, a.fingerprint digest = b.fingerprint digest ∧
      ∀ {H : Type} (write : H → UInt64 → H) (h : H),
        hashInto write digest a h = hashInto write digest b h) ∧
    ∀ n, (blank n == {}) = true ∧ (blank n).isSubset a = true ∧
      ((blank n == a) = true ↔ a.isEmpty = true) := by
  have hroom_a := addressable_of_mem_shelf hcs ha
  have hroom_b := addressable_of_mem_shelf hcs hb
  have hsame : (∀ p < positionLimit, a.contains p = b.contains p) ↔ (a == b) = true := by
    rw [beq_iff_contains]
    exact hroom_a.forall_contains_iff hroom_b (R := (· = ·)) rfl
  have hpart : (∀ p < positionLimit, a.contains p = true → b.contains p = true) ↔
      a.isSubset b = true := by
    rw [isSubset_iff_contains]
    exact hroom_a.forall_contains_iff hroom_b (R := fun x y => x = true → y = true) id
  refine ⟨?_, hpart.symm, ?_, ?_, ?_⟩
  · tfae_have 1 ↔ 2 := hsame.symm
    tfae_have 1 ↔ 4 := by
      change (a.significant == b.significant) = true ↔ _
      exact beq_iff_eq
    tfae_have 1 ↔ 3 := by
      rw [beq_iff_contains, isSubset_iff_contains, isSubset_iff_contains, ← forall_and]
      exact forall_congr' fun p => Bool.eq_iff_iff.trans iff_def
    tfae_finish
  · obtain ⟨k, hwords⟩ := exists_words_eq a
    refine ⟨k, hwords, fun hzero => ?_⟩
    have hne : a.significant ≠ [] := by
      intro hnil
      simp [hnil] at hzero
    rw [List.getLast?_eq_some_getLast hne] at hzero
    exact significant_getLast_ne hne (Option.some.inj hzero)
  · intro heq digest
    have hfingerprint := fingerprint_eq_of_contains_eq (beq_iff_contains.mp heq) digest
    exact ⟨hfingerprint, fun write h => congrArg (write h) hfingerprint⟩
  · refine fun n => ⟨?_, ?_, isEmpty_iff_beq_blank a n⟩
    · exact beq_iff_contains.mpr fun p => (contains_blank n p).trans (contains_blank 0 p).symm
    · exact isSubset_iff_contains.mpr fun p hp => absurd hp (by simp)

/-- Of these two bitmaps one has a single word and the other sixteen, the last of which was in use
for a while. Both have position 2 alone. -/
theorem comparisons_tell_positions_uneven :
    let cs : List Shelving := [.blank 4, .change 0 (.insert 2), .blank 1000,
      .change 1 (.insert 2), .change 1 (.insert 999), .change 1 (.erase 999)]
    let a : Bitmap := ⟨#[4]⟩
    let b : Bitmap := ⟨#[4, 0, 0, 0, 0, 0, 0, 0, 0, 0, 0, 0, 0, 0, 0, 0]⟩
    shelf cs = [a, b] ∧ (a == b) = true ∧ ∀ p < positionLimit, a.contains p = b.contains p := by
  intro cs a b
  have hshelf : shelf cs = [a, b] := by cbv
  have htell := comparisons_tell_positions cs (by simp [cs, Shelving.Fits, Change.Fits,
    positionLimit]) (a := a) (b := b) (by simp [hshelf]) (by simp [hshelf])
  exact ⟨hshelf, by cbv, (htell.1.out 0 1).mp (by cbv)⟩

end WorkTracking.Bitmap
