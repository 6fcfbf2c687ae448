import Mathlib.Data.List.DropRight
import Mathlib.Data.List.GetD
import WorkTracking.Bitmap.Digest
import WorkTracking.Bitmap.Membership

/-!
Comparison of bitmaps. The significant words of a bitmap are its words without the zeros at the end,
so they are the same for two bitmaps just if both contain the same positions, however many words
each of them has come to hold. The comparison word by word finds out whether the positions of one
are among those of the other.
-/
namespace WorkTracking

theorem Word.and_not_eq_zero_iff {v w : UInt64} :
    v &&& ~~~w = 0 ↔ ∀ i < 64, test v i = true → test w i = true := by
  rw [eq_zero_iff]
  refine forall₂_congr fun i hi => ?_
  rw [test_and _ _ hi, test_not _ hi]
  cases test v i <;> cases test w i <;> decide

namespace Bitmap

theorem significant_eq_rdropWhile (b : Bitmap) :
    b.significant = b.words.toList.rdropWhile (· == 0) := rfl

/-- Zeros at the end of a list do not show when it is read with zeros past its end. -/
theorem getD_rdropWhile_zero (ws : List UInt64) (k : Nat) :
    (ws.rdropWhile (· == 0)).getD k 0 = ws.getD k 0 := by
  induction ws using List.reverseRecOn with
  | nil => simp
  | append_singleton ws w ih =>
    by_cases h : w = 0
    · subst h
      rw [List.rdropWhile_concat_pos _ _ _ (by simp), ih]
      by_cases hk : k < ws.length
      · rw [List.getD_append _ _ _ _ hk]
      · rw [List.getD_append_right _ _ _ _ (by omega), List.getD_eq_default _ _ (by omega)]
        cases k - ws.length <;> simp
    · rw [List.rdropWhile_concat_neg _ _ _ (by simpa using h)]

theorem getD_significant (b : Bitmap) (k : Nat) : b.significant.getD k 0 = b.word k := by
  rw [significant_eq_rdropWhile, getD_rdropWhile_zero]
  simp [word, Array.getD_eq_getD_getElem?]

/-- The last significant word is not zero. -/
theorem significant_getLast_ne {b : Bitmap} (h : b.significant ≠ []) :
    b.significant.getLast h ≠ 0 := by
  have hlast := List.rdropWhile_last_not (· == 0) b.words.toList h
  simpa [significant_eq_rdropWhile] using hlast

/-- A bitmap with more significant words than another differs from it in the last of them. -/
theorem length_significant_le {b c : Bitmap} (h : ∀ k, b.word k = c.word k) :
    c.significant.length ≤ b.significant.length := by
  apply Nat.not_lt.mp
  intro hlt
  have hne : c.significant ≠ [] := List.length_pos_iff.mp (by omega)
  have hpast : b.word (c.significant.length - 1) = 0 := by
    rw [← getD_significant]
    exact List.getD_eq_default _ _ (by omega)
  have hlast : c.word (c.significant.length - 1) = c.significant.getLast hne := by
    rw [← getD_significant, List.getLast_eq_getElem]
    exact List.getD_eq_getElem _ _ (by omega)
  apply significant_getLast_ne hne
  rw [← hlast, ← h, hpast]

theorem significant_eq_of_word_eq {b c : Bitmap} (h : ∀ k, b.word k = c.word k) :
    b.significant = c.significant := by
  apply List.ext_getElem
  · exact Nat.le_antisymm (length_significant_le fun k => (h k).symm) (length_significant_le h)
  · intro k hb hc
    have hk := h k
    rw [← getD_significant, ← getD_significant, List.getD_eq_getElem _ _ hb,
      List.getD_eq_getElem _ _ hc] at hk
    exact hk

theorem word_eq_of_contains_eq {b c : Bitmap} (h : ∀ p, b.contains p = c.contains p) (k : Nat) :
    b.word k = c.word k := by
  apply Word.ext_test
  intro i hi
  have hp := h (64 * k + i)
  simp only [contains] at hp
  rwa [show (64 * k + i) / 64 = k by omega, show (64 * k + i) % 64 = i by omega] at hp

/-- Bitmaps are equal just if they contain the same positions. -/
theorem beq_iff_contains {b c : Bitmap} :
    (b == c) = true ↔ ∀ p, b.contains p = c.contains p := by
  change (b.significant == c.significant) = true ↔ _
  rw [beq_iff_eq]
  constructor
  · intro h p
    simp only [contains, ← getD_significant, h]
  · intro h
    exact significant_eq_of_word_eq (word_eq_of_contains_eq h)

/-- A fingerprint tells nothing but which positions there are. -/
theorem fingerprint_eq_of_contains_eq {b c : Bitmap} (h : ∀ p, b.contains p = c.contains p)
    (digest : WordDigest) : b.fingerprint digest = c.fingerprint digest :=
  congrArg digest (significant_eq_of_word_eq (word_eq_of_contains_eq h))

/-- Words that one of the bitmaps lacks count as zero, on either side. -/
theorem isSubset_iff_contains {b c : Bitmap} :
    b.isSubset c = true ↔ ∀ p, b.contains p = true → c.contains p = true := by
  simp only [isSubset, List.all_eq_true, List.mem_range, beq_iff_eq, Word.and_not_eq_zero_iff]
  constructor
  · intro h p hp
    have hsize := lt_of_contains hp
    exact h (p / 64) (by omega) (p % 64) (Nat.mod_lt _ (by decide)) hp
  · intro h k _ i hi hword
    have hp := h (64 * k + i)
    simp only [contains] at hp
    rw [show (64 * k + i) / 64 = k by omega, show (64 * k + i) % 64 = i by omega] at hp
    exact hp hword

end Bitmap

end WorkTracking
