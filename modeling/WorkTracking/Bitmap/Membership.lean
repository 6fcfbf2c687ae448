import WorkTracking.Bitmap.Basic

/-!
What each operation on bitmaps does to membership: insertion and removal change one position and
report whether they did, clearing and blank bitmaps leave none.
-/
namespace WorkTracking.Bitmap

theorem word_of_size_le {b : Bitmap} {k : Nat} (h : b.words.size ≤ k) : b.word k = 0 := by
  simp [word, Array.getD_eq_getD_getElem?, h]

@[simp] theorem word_blank (n k : Nat) : (blank n).word k = 0 := by
  simp only [word, blank, Array.getD_eq_getD_getElem?, Array.getElem?_replicate]
  split <;> rfl

@[simp] theorem word_clear (b : Bitmap) (k : Nat) : b.clear.word k = 0 := by
  simp only [word, clear, Array.getD_eq_getD_getElem?, Array.getElem?_map]
  cases b.words[k]? <;> rfl

@[simp] theorem contains_blank (n p : Nat) : (blank n).contains p = false := by
  simp [contains]

@[simp] theorem contains_clear (b : Bitmap) (p : Nat) : b.clear.contains p = false := by
  simp [contains]

theorem getD_grown (words : Array UInt64) (n k : Nat) :
    (grown words n).getD k 0 = words.getD k 0 := by
  simp only [grown, Array.getD_eq_getD_getElem?, Array.getElem?_append, Array.getElem?_replicate]
  split
  case isTrue => rfl
  case isFalse h =>
    rw [Array.getElem?_eq_none (Nat.not_lt.mp h)]
    split <;> rfl

theorem lt_size_grown (words : Array UInt64) (k : Nat) : k < (grown words (k + 1)).size := by
  simp only [grown, Array.size_append, Array.size_replicate]
  omega

theorem word_insert (b : Bitmap) (p k : Nat) :
    (b.insert p).bitmap.word k =
      if k = p / 64 then b.word k ||| Word.mask (p % 64) else b.word k := by
  have size := lt_size_grown b.words (p / 64)
  have same := getD_grown b.words (p / 64 + 1)
  simp only [insert, word, Array.getD_eq_getD_getElem?, Array.getElem?_setIfInBounds] at same ⊢
  by_cases h : p / 64 = k
  · subst h
    have here := same (p / 64)
    rw [Array.getElem?_eq_getElem size, Option.getD_some] at here
    simp [size, here]
  · simp [h, Ne.symm h, same]

theorem word_erase (b : Bitmap) (p k : Nat) :
    (b.erase p).bitmap.word k =
      if k = p / 64 then b.word k &&& ~~~Word.mask (p % 64) else b.word k := by
  unfold erase
  split
  case h_1 missing =>
    by_cases h : k = p / 64
    · subst h
      simp [word, Array.getD_eq_getD_getElem?, missing]
    · simp [h]
  case h_2 w found =>
    obtain ⟨size, rfl⟩ := Array.getElem?_eq_some_iff.mp found
    simp only [word, Array.getD_eq_getD_getElem?, Array.getElem?_setIfInBounds]
    by_cases h : p / 64 = k
    · subst h
      simp [size]
    · simp [h, Ne.symm h]

/-- Within one word, positions differ just if their remainders do. -/
theorem decide_mod_eq {p q : Nat} (word : q / 64 = p / 64) :
    decide (p % 64 = q % 64) = (q == p) := by
  rw [Bool.eq_iff_iff, decide_eq_true_iff, beq_iff_eq]
  omega

theorem contains_insert (b : Bitmap) (p q : Nat) :
    (b.insert p).bitmap.contains q = (q == p || b.contains q) := by
  have hp : p % 64 < 64 := Nat.mod_lt _ (by decide)
  have hq : q % 64 < 64 := Nat.mod_lt _ (by decide)
  simp only [contains, word_insert]
  by_cases word : q / 64 = p / 64
  · rw [if_pos word, Word.test_or _ _ hq, Word.test_mask hp hq, Bool.or_comm, decide_mod_eq word]
  · have : (q == p) = false := by simp only [beq_eq_false_iff_ne]; omega
    rw [if_neg word, this, Bool.false_or]

theorem contains_erase (b : Bitmap) (p q : Nat) :
    (b.erase p).bitmap.contains q = (q != p && b.contains q) := by
  have hp : p % 64 < 64 := Nat.mod_lt _ (by decide)
  have hq : q % 64 < 64 := Nat.mod_lt _ (by decide)
  simp only [contains, word_erase]
  by_cases word : q / 64 = p / 64
  · rw [if_pos word, Word.test_and _ _ hq, Word.test_not _ hq, Word.test_mask hp hq,
      decide_mod_eq word, Bool.and_comm, bne]
  · have : (q != p) = true := by simp only [bne_iff_ne]; omega
    rw [if_neg word, this, Bool.true_and]

theorem changed_insert (b : Bitmap) (p : Nat) : (b.insert p).changed = !b.contains p := by
  simp only [insert, getD_grown, contains, word, Word.test, bne, Bool.not_not]

theorem changed_erase (b : Bitmap) (p : Nat) : (b.erase p).changed = b.contains p := by
  unfold erase
  split
  case h_1 missing => simp [contains, word, Array.getD_eq_getD_getElem?, missing]
  case h_2 w found => simp [contains, word, Array.getD_eq_getD_getElem?, found, Word.test]

theorem lt_of_contains {b : Bitmap} {p : Nat} (h : b.contains p = true) :
    p < 64 * b.words.size := by
  by_cases size : p / 64 < b.words.size
  · omega
  · simp [contains, word_of_size_le (Nat.not_lt.mp size)] at h

end WorkTracking.Bitmap
