import WorkTracking.Bitmap.Membership

/-!
The positions of a bitmap. `next?` finds the least position from a start on, so that `positions`
lists exactly the positions contained, in ascending order and each once. The count and the test for
emptiness agree with this list, whatever the number of words.
-/
namespace WorkTracking.Bitmap

/-- The least place from `start` on where `P` holds, or nothing if there is none. -/
def IsFirst (P : Nat → Bool) (start : Nat) : Option Nat → Prop
  | some p => start ≤ p ∧ P p = true ∧ ∀ q, start ≤ q → q < p → P q = false
  | none => ∀ q, start ≤ q → P q = false

/-- A search may start earlier if nothing is found before the old start. -/
theorem IsFirst.extend {P Q : Nat → Bool} {start early : Nat} {r : Option Nat}
    (h : IsFirst P start r) (he : early ≤ start)
    (hbefore : ∀ q, early ≤ q → q < start → Q q = false) (hafter : ∀ q, start ≤ q → P q = Q q) :
    IsFirst Q early r := by
  cases r with
  | none =>
    intro q hq
    by_cases hs : start ≤ q
    · rw [← hafter q hs, h q hs]
    · exact hbefore q hq (Nat.not_le.mp hs)
  | some p =>
    obtain ⟨hp, hP, hmin⟩ := h
    refine ⟨Nat.le_trans he hp, by rw [← hafter p hp, hP], fun q hq hqp => ?_⟩
    by_cases hs : start ≤ q
    · rw [← hafter q hs, hmin q hs hqp]
    · exact hbefore q hq (Nat.not_le.mp hs)

/-- A search may start later if nothing is found before the new start. -/
theorem IsFirst.restrict {P Q : Nat → Bool} {start late : Nat} {r : Option Nat}
    (h : IsFirst P start r) (hl : start ≤ late)
    (hbefore : ∀ q, start ≤ q → q < late → P q = false) (hafter : ∀ q, late ≤ q → P q = Q q) :
    IsFirst Q late r := by
  cases r with
  | none =>
    intro q hq
    rw [← hafter q hq]
    exact h q (Nat.le_trans hl hq)
  | some p =>
    obtain ⟨hp, hP, hmin⟩ := h
    have hlate : late ≤ p := by
      apply Nat.not_lt.mp
      intro hlt
      simp [hbefore p hp hlt] at hP
    refine ⟨hlate, by rw [← hafter p hlate, hP], fun q hq hqp => ?_⟩
    rw [← hafter q hq]
    exact hmin q (Nat.le_trans hl hq) hqp

theorem contains_of_word_size_le {b : Bitmap} {q : Nat} (h : b.words.size ≤ q / 64) :
    b.contains q = false := by
  simp [contains, word_of_size_le h]

/-- Membership from word `k` on, when `w` stands for that word. -/
def partly (b : Bitmap) (k : Nat) (w : UInt64) (q : Nat) : Bool :=
  if q / 64 = k then Word.test w (q % 64) else b.contains q

theorem partly_word (b : Bitmap) (k : Nat) : b.partly k (b.word k) = b.contains := by
  funext q
  unfold partly contains
  split
  next h => rw [h]
  next => rfl

theorem scan_isFirst {b : Bitmap} {k : Nat} {w : UInt64} (size : k < b.words.size) :
    IsFirst (b.partly k w) (64 * k) (b.scan k w) := by
  fun_induction scan b k w with
  | case1 k w i found =>
    obtain ⟨hi, hlt, hmin⟩ := List.find?_range_eq_some.mp found
    have hlt := List.mem_range.mp hlt
    refine ⟨by omega, ?_, fun q hq hqi => ?_⟩
    · rw [partly, if_pos (by omega), show (64 * k + i) % 64 = i by omega, hi]
    · rw [partly, if_pos (by omega)]
      simpa using hmin (q % 64) (by omega)
  | case2 k w empty more ih =>
    have hw := Word.lowest?_eq_none.mp empty
    refine (ih more).extend (by omega) (fun q hq hqk => ?_) fun q hq => ?_
    · rw [partly, if_pos (by omega), hw, Word.test_zero]
    · rw [partly_word, partly, if_neg (by omega)]
  | case3 k w empty last =>
    have hw := Word.lowest?_eq_none.mp empty
    intro q hq
    unfold partly
    split
    next => rw [hw, Word.test_zero]
    next h => exact contains_of_word_size_le (by omega)

/-- The search finds the least position from the start on, and finds it if there is one. -/
theorem next?_isFirst (b : Bitmap) (start : Nat) : IsFirst b.contains start (b.next? start) := by
  unfold next?
  split
  next size =>
    have hpart (q : Nat) (hq : q / 64 = start / 64) :
        b.partly (start / 64) (b.word (start / 64) &&& Word.upFrom (start % 64)) q =
          (b.contains q && decide (start % 64 ≤ q % 64)) := by
      rw [partly, if_pos hq, Word.test_and _ _ (by omega), Word.test_upFrom (by omega) (by omega),
        contains, hq]
    refine (scan_isFirst size).restrict (by omega) (fun q hq hlt => ?_) fun q hq => ?_
    · rw [hpart q (by omega), decide_eq_false (by omega), Bool.and_false]
    · by_cases h : q / 64 = start / 64
      · rw [hpart q h, decide_eq_true (by omega), Bool.and_true]
      · rw [partly, if_neg h]
  next size =>
    intro q hq
    exact contains_of_word_size_le (by omega)

theorem positionsFrom_of_none {b : Bitmap} {start : Nat} (h : b.next? start = none) :
    b.positionsFrom start = [] := by
  rw [positionsFrom]
  split
  next => rfl
  next p found => cases h.symm.trans found

theorem positionsFrom_of_some {b : Bitmap} {start p : Nat} (h : b.next? start = some p) :
    b.positionsFrom start = p :: b.positionsFrom (p + 1) := by
  rw [positionsFrom]
  split
  next found => cases h.symm.trans found
  next q found =>
    cases h.symm.trans found
    rfl

theorem positionsFrom_eq_filter (b : Bitmap) (start : Nat) :
    b.positionsFrom start =
      (List.range' start (64 * b.words.size - start)).filter b.contains := by
  fun_induction positionsFrom b start with
  | case1 start found =>
    have h := next?_isFirst b start
    rw [found] at h
    symm
    rw [List.filter_eq_nil_iff]
    intro q hq
    rw [List.mem_range'_1] at hq
    simp [h q hq.1]
  | case2 start p found ih =>
    have h := next?_isFirst b start
    rw [found] at h
    obtain ⟨hp, hin, hmin⟩ := h
    have hlt := lt_of_contains hin
    have hsplit : List.range' start (64 * b.words.size - start) =
        List.range' start (p - start) ++
          p :: List.range' (p + 1) (64 * b.words.size - (p + 1)) := by
      have h₁ := @List.range'_append_1 start (p - start) (64 * b.words.size - p)
      have h₂ := @List.range'_succ p (64 * b.words.size - (p + 1)) 1
      rw [show start + (p - start) = p by omega] at h₁
      rw [show 64 * b.words.size - (p + 1) + 1 = 64 * b.words.size - p by omega] at h₂
      rw [← h₂, h₁]
      congr 1
      omega
    have hnone : (List.range' start (p - start)).filter b.contains = [] := by
      rw [List.filter_eq_nil_iff]
      intro q hq
      rw [List.mem_range'_1] at hq
      simp [hmin q hq.1 (by omega)]
    rw [hsplit, List.filter_append, hnone, List.filter_cons_of_pos hin, ih, List.nil_append]

/-- The positions are those of the words that are there, asked for one by one. -/
theorem positions_eq_filter (b : Bitmap) :
    b.positions = (List.range (64 * b.words.size)).filter b.contains := by
  rw [positions, positionsFrom_eq_filter, List.range_eq_range']
  rfl

@[simp] theorem mem_positions {b : Bitmap} {p : Nat} : p ∈ b.positions ↔ b.contains p = true := by
  rw [positions_eq_filter, List.mem_filter, List.mem_range]
  exact ⟨And.right, fun h => ⟨lt_of_contains h, h⟩⟩

theorem positions_ascending (b : Bitmap) : b.positions.Pairwise (· < ·) := by
  rw [positions_eq_filter]
  exact List.pairwise_lt_range.filter _

theorem nodup_positions (b : Bitmap) : b.positions.Nodup :=
  b.positions_ascending.imp fun h => Nat.ne_of_lt h

/-- Counting on from `n` is counting from nothing, and `n` more. -/
theorem foldr_count_add (ws : List UInt64) (n : Nat) :
    ws.foldr (fun w m => Word.count w + m) n = ws.foldr (fun w m => Word.count w + m) 0 + n := by
  induction ws with
  | nil => simp
  | cons w ws ih =>
    rw [List.foldr_cons, List.foldr_cons, ih]
    omega

/-- Counting over `n` words is counting over their positions. -/
theorem count_words (b : Bitmap) (n : Nat) :
    ((List.range n).map b.word).foldr (fun w m => Word.count w + m) 0 =
      (List.range (64 * n)).countP b.contains := by
  induction n with
  | zero => rfl
  | succ n ih =>
    have hword : Word.count (b.word n) =
        ((List.range 64).map (64 * n + ·)).countP b.contains := by
      rw [Word.count, List.countP_map]
      apply List.countP_congr
      intro i hi
      have hi := List.mem_range.mp hi
      simp only [Function.comp_apply, contains]
      rw [show (64 * n + i) / 64 = n by omega, show (64 * n + i) % 64 = i by omega]
    rw [List.range_succ, List.map_append, List.foldr_append, foldr_count_add, ih, Nat.mul_add,
      Nat.mul_one, List.range_add, List.countP_append, ← hword]
    simp

theorem toList_words (b : Bitmap) : b.words.toList = (List.range b.words.size).map b.word := by
  apply List.ext_getElem
  · simp
  · intro k h _
    have h : k < b.words.size := by simpa using h
    simp [word, Array.getD_eq_getD_getElem?, h]

/-- The count of a bitmap is the number of its positions. -/
theorem count_eq_length_positions (b : Bitmap) : b.count = b.positions.length := by
  rw [count, toList_words, count_words, positions_eq_filter, ← List.countP_eq_length_filter]

theorem isEmpty_iff (b : Bitmap) : b.isEmpty = true ↔ ∀ p, b.contains p = false := by
  have hall : b.isEmpty = true ↔ ∀ w ∈ b.words.toList, w = 0 := by
    simp [isEmpty, Array.forall_mem_iff_forall_getElem]
  rw [hall, toList_words]
  constructor
  · intro h p
    by_cases hp : p / 64 < b.words.size
    · rw [contains, h _ (List.mem_map.mpr ⟨p / 64, List.mem_range.mpr hp, rfl⟩), Word.test_zero]
    · exact contains_of_word_size_le (Nat.not_lt.mp hp)
  · intro h w hw
    obtain ⟨k, -, rfl⟩ := List.mem_map.mp hw
    rw [Word.eq_zero_iff]
    intro i hi
    have := h (64 * k + i)
    rwa [contains, show (64 * k + i) / 64 = k by omega, show (64 * k + i) % 64 = i by omega] at this

theorem isEmpty_eq_count (b : Bitmap) : b.isEmpty = (b.count == 0) := by
  rw [Bool.eq_iff_iff, isEmpty_iff, beq_iff_eq, count_eq_length_positions, List.length_eq_zero_iff,
    List.eq_nil_iff_forall_not_mem]
  simp

end WorkTracking.Bitmap
