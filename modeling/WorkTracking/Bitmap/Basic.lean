import WorkTracking.Bitmap.Word
import WorkTracking.Text.Printed

/-!
Growable bitmaps: sets of natural numbers in 64-bit words. Words past the end count as zero, so
trailing zero words carry no meaning.
-/
namespace WorkTracking

structure Bitmap where
  words : Array UInt64 := #[]

namespace Bitmap

/-- An empty bitmap with room for the positions below `n`. -/
def blank (n : Nat) : Bitmap := ⟨Array.replicate ((n + 63) / 64) 0⟩

def word (b : Bitmap) (k : Nat) : UInt64 := b.words.getD k 0

def contains (b : Bitmap) (p : Nat) : Bool := Word.test (b.word (p / 64)) (p % 64)

/-- A bitmap after a change to one position, and whether that position's membership differs. -/
structure Update where
  bitmap : Bitmap
  changed : Bool

/-- Zero words are added until there are at least `n`. -/
def grown (words : Array UInt64) (n : Nat) : Array UInt64 :=
  words ++ Array.replicate (n - words.size) 0

def insert (b : Bitmap) (p : Nat) : Update :=
  let words := grown b.words (p / 64 + 1)
  let w := words.getD (p / 64) 0
  { bitmap := ⟨words.setIfInBounds (p / 64) (w ||| Word.mask (p % 64))⟩
    changed := w &&& Word.mask (p % 64) == 0 }

/-- A position past the end is absent already, and the words stay as they are. -/
def erase (b : Bitmap) (p : Nat) : Update :=
  match b.words[p / 64]? with
  | none => { bitmap := b, changed := false }
  | some w =>
    { bitmap := ⟨b.words.setIfInBounds (p / 64) (w &&& ~~~Word.mask (p % 64))⟩
      changed := w &&& Word.mask (p % 64) != 0 }

/-- All words become zero; their number stays. -/
def clear (b : Bitmap) : Bitmap := ⟨b.words.map fun _ => 0⟩

def count (b : Bitmap) : Nat := b.words.toList.foldr (fun w n => Word.count w + n) 0

def isEmpty (b : Bitmap) : Bool := b.words.all (· == 0)

/-- The first position of `w`, a part of word `k`, and of the words after it. -/
def scan (b : Bitmap) (k : Nat) (w : UInt64) : Option Nat :=
  match Word.lowest? w with
  | some i => some (64 * k + i)
  | none => if k + 1 < b.words.size then b.scan (k + 1) (b.word (k + 1)) else none
termination_by b.words.size - k

/-- The first position at or after `start`. -/
def next? (b : Bitmap) (start : Nat) : Option Nat :=
  if start / 64 < b.words.size then
    b.scan (start / 64) (b.word (start / 64) &&& Word.upFrom (start % 64))
  else none

/-- Whether every position of `b` is in `c`, word by word. -/
def isSubset (b c : Bitmap) : Bool :=
  (List.range b.words.size).all fun k => b.word k &&& ~~~c.word k == 0

theorem scan_bounds {b : Bitmap} {k p : Nat} {w : UInt64} (size : k < b.words.size)
    (h : b.scan k w = some p) : 64 * k ≤ p ∧ p < 64 * b.words.size := by
  fun_induction scan b k w with
  | case1 k w i found =>
    have := (Word.lowest?_eq_some found).1
    simp only [Option.some.injEq] at h
    omega
  | case2 k w _ more ih =>
    have := ih more h
    omega
  | case3 => simp at h

theorem next?_bounds {b : Bitmap} {start p : Nat} (h : b.next? start = some p) :
    start ≤ p ∧ p < 64 * b.words.size := by
  unfold next? at h
  split at h
  case isFalse => simp at h
  case isTrue size =>
    refine ⟨?_, (scan_bounds size h).2⟩
    unfold scan at h
    split at h
    case h_1 i found =>
      obtain ⟨small, set⟩ := Word.lowest?_eq_some found
      rw [Word.test_and _ _ small, Word.test_upFrom (Nat.mod_lt _ (by decide)) small] at set
      simp only [Bool.and_eq_true, decide_eq_true_eq, Option.some.injEq] at set h
      omega
    case h_2 =>
      split at h
      case isTrue more =>
        have := (scan_bounds more h).1
        omega
      case isFalse => simp at h

/-- The positions at or after `start`, in ascending order. -/
def positionsFrom (b : Bitmap) (start : Nat) : List Nat :=
  match _found : b.next? start with
  | none => []
  | some p => p :: b.positionsFrom (p + 1)
termination_by 64 * b.words.size - start
decreasing_by
  have := next?_bounds _found
  omega

def positions (b : Bitmap) : List Nat := b.positionsFrom 0

def quoted (b : Bitmap) : String :=
  "Bits(" ++ Text.bracketed (b.positions.map toString) ++ ")"

end Bitmap

end WorkTracking
