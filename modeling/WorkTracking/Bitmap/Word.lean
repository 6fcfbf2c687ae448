/-!
One 64-bit word as a set of positions below 64. Every operation is described by what `Word.test`
answers afterwards; positions of 64 and above have no meaning here.
-/
namespace WorkTracking.Word

/-- The word that holds position `i` alone. -/
def mask (i : Nat) : UInt64 := 1 <<< UInt64.ofNat i

def test (w : UInt64) (i : Nat) : Bool := w &&& mask i != 0

/-- The word that holds every position from `i` on. -/
def upFrom (i : Nat) : UInt64 := ~~~0 <<< UInt64.ofNat i

def count (w : UInt64) : Nat := (List.range 64).countP (test w)

def lowest? (w : UInt64) : Option Nat := (List.range 64).find? (test w)

theorem toBitVec_mask : ∀ i < 64, (mask i).toBitVec = BitVec.twoPow 64 i := by decide

theorem toBitVec_upFrom : ∀ i < 64, (upFrom i).toBitVec = BitVec.allOnes 64 <<< i := by decide

theorem test_eq_getLsbD (w : UInt64) {i : Nat} (h : i < 64) :
    test w i = w.toBitVec.getLsbD i := by
  have zero : (w &&& mask i = 0) ↔ w.toBitVec.getLsbD i = false := by
    rw [← UInt64.toBitVec_inj, UInt64.toBitVec_and, toBitVec_mask i h, BitVec.and_twoPow]
    cases w.toBitVec.getLsbD i
    · simp
    · suffices BitVec.twoPow 64 i ≠ 0#64 by simpa using this
      intro none
      have := congrArg (·.getLsbD i) none
      simp [h] at this
  cases hb : w.toBitVec.getLsbD i <;> simp [test, zero, hb]

theorem ext_test {v w : UInt64} (h : ∀ i < 64, test v i = test w i) : v = w := by
  rw [← UInt64.toBitVec_inj]
  refine BitVec.eq_of_getLsbD_eq fun i hi => ?_
  rw [← test_eq_getLsbD v hi, ← test_eq_getLsbD w hi, h i hi]

@[simp] theorem test_zero (i : Nat) : test 0 i = false := by simp [test]

theorem test_mask {i j : Nat} (hi : i < 64) (hj : j < 64) : test (mask i) j = decide (i = j) := by
  rw [test_eq_getLsbD _ hj, toBitVec_mask i hi, BitVec.getLsbD_twoPow]
  simp [hi]

theorem test_and (v w : UInt64) {i : Nat} (h : i < 64) :
    test (v &&& w) i = (test v i && test w i) := by
  simp [test_eq_getLsbD, h]

theorem test_or (v w : UInt64) {i : Nat} (h : i < 64) :
    test (v ||| w) i = (test v i || test w i) := by
  simp [test_eq_getLsbD, h]

theorem test_not (w : UInt64) {i : Nat} (h : i < 64) : test (~~~w) i = !test w i := by
  simp [test_eq_getLsbD, h]

theorem test_upFrom {i j : Nat} (hi : i < 64) (hj : j < 64) :
    test (upFrom i) j = decide (i ≤ j) := by
  rw [test_eq_getLsbD _ hj, toBitVec_upFrom i hi, BitVec.getLsbD_shiftLeft,
    BitVec.getLsbD_allOnes]
  by_cases le : i ≤ j
  · simp [hj, Nat.not_lt.mpr le, Nat.lt_of_le_of_lt (Nat.sub_le j i) hj, le]
  · simp [Nat.not_le.mp le, le]

/-- A word is zero just if it holds no position. -/
theorem eq_zero_iff (w : UInt64) : w = 0 ↔ ∀ i < 64, test w i = false :=
  ⟨fun h => by simp [h], fun h => ext_test fun i hi => by simp [h i hi]⟩

theorem lowest?_eq_some {w : UInt64} {i : Nat} (h : lowest? w = some i) :
    i < 64 ∧ test w i = true := by
  have mem := List.mem_of_find?_eq_some h
  exact ⟨List.mem_range.mp mem, List.find?_some h⟩

theorem lowest?_eq_none {w : UInt64} : lowest? w = none ↔ w = 0 := by
  rw [eq_zero_iff]
  simp [lowest?]

end WorkTracking.Word
