import Mathlib.Data.List.Perm.Subperm
import WorkTracking.Proofs.Bitmap.Shelf

/-!
Bitmaps on a machine whose numbers are words of 64 bits. Nothing is taken for granted there: a sum
or product that no word can hold, a shift by a whole word or more and a word that is not there each
stop the work, and so does a loop with turns still to go after those it was given. For bitmaps as
they come about none of this happens, and every operation does what it does with unbounded numbers.
-/
namespace WorkTracking

/-! ### Bits of a word -/

/-- The lowest position of a word that is not zero is the number of zeros below it. -/
theorem Word.lowest?_of_ne_zero {w : UInt64} (h : w ≠ 0) :
    lowest? w = some w.toBitVec.ctz.toNat := by
  have hbits : w.toBitVec ≠ 0#64 := fun hz => h (UInt64.toBitVec_inj.mp hz)
  have hlt : w.toBitVec.ctz.toNat < 64 := by
    have := BitVec.ctz_lt_iff_ne_zero.mpr hbits
    simpa [BitVec.lt_def] using this
  refine List.find?_range_eq_some.mpr ⟨?_, List.mem_range.mpr hlt, fun i hi => ?_⟩
  · rw [test_eq_getLsbD _ hlt]
    exact BitVec.getLsbD_true_ctz_of_ne_zero hbits
  · rw [test_eq_getLsbD _ (hi.trans hlt), BitVec.getLsbD_false_of_lt_ctz hi]
    rfl

theorem Word.countP_getLsbD (x : BitVec 64) (n : Nat) :
    (List.range n).countP (x.getLsbD ·) = x.cpopNatRec n 0 := by
  induction n with
  | zero => rfl
  | succ n ih =>
    rw [BitVec.cpopNatRec_succ, BitVec.cpopNatRec_add, ← ih, List.range_succ, List.countP_append]
    cases hx : x.getLsbD n <;> simp [hx]

/-- The positions of a word are as many as its ones. -/
theorem Word.count_eq_cpop (w : UInt64) : count w = w.toBitVec.cpop.toNat := by
  rw [BitVec.toNat_cpop, ← countP_getLsbD]
  refine List.countP_congr fun i hi => ?_
  rw [test_eq_getLsbD w (List.mem_range.mp hi)]

namespace Bitmap

/-- What stops the work. -/
inductive Trouble where
  | overflow
  | wideShift
  | missingWord
  | unfinished
  deriving DecidableEq, Repr

namespace Machine

/-- A number that has been computed, if a machine word can hold it. -/
def fitting (n : Nat) : Except Trouble Nat :=
  if n < positionLimit then .ok n else .error .overflow

def shifted (w : UInt64) (i : Nat) : Except Trouble UInt64 :=
  if i < 64 then .ok (w <<< UInt64.ofNat i) else .error .wideShift

def wordAt (words : Array UInt64) (k : Nat) : Except Trouble UInt64 :=
  match words[k]? with
  | some w => .ok w
  | none => .error .missingWord

def put (words : Array UInt64) (k : Nat) (w : UInt64) : Except Trouble (Array UInt64) :=
  if k < words.size then .ok (words.setIfInBounds k w) else .error .missingWord

/-- One word for every 64 positions, and one for the rest if there is a rest. -/
def blank (n : Nat) : Except Trouble Bitmap := do
  let words ← if n % 64 = 0 then .ok (n / 64) else fitting (n / 64 + 1)
  return ⟨Array.replicate words 0⟩

def contains (b : Bitmap) (p : Nat) : Except Trouble Bool :=
  match b.words[p / 64]? with
  | none => return false
  | some w => do
    let mask ← shifted 1 (p % 64)
    return w &&& mask != 0

/-- Words are added only if the one for `p` is missing. -/
def room (b : Bitmap) (p : Nat) : Except Trouble (Array UInt64) :=
  if p / 64 < b.words.size then .ok b.words
  else do
    let size ← fitting (p / 64 + 1)
    return grown b.words size

def insert (b : Bitmap) (p : Nat) : Except Trouble Update := do
  let words ← room b p
  let mask ← shifted 1 (p % 64)
  let w ← wordAt words (p / 64)
  let after ← put words (p / 64) (w ||| mask)
  return { bitmap := ⟨after⟩, changed := w &&& mask == 0 }

def erase (b : Bitmap) (p : Nat) : Except Trouble Update :=
  match b.words[p / 64]? with
  | none => return { bitmap := b, changed := false }
  | some w => do
    let mask ← shifted 1 (p % 64)
    let after ← put b.words (p / 64) (w &&& ~~~mask)
    return { bitmap := ⟨after⟩, changed := w &&& mask != 0 }

/-- The ones of all words, added up from the first word on. -/
def count (b : Bitmap) : Except Trouble Nat :=
  b.words.toList.foldlM (fun n w => fitting (n + w.toBitVec.cpop.toNat)) 0

/-- The search from word `k` on, of which only `w` is still in question. A turn is one word. -/
def scan (b : Bitmap) : Nat → Nat → UInt64 → Except Trouble (Option Nat)
  | 0, _, _ => throw .unfinished
  | turns + 1, k, w =>
    if w != 0 then do
      let base ← fitting (k * 64)
      let p ← fitting (base + w.toBitVec.ctz.toNat)
      return some p
    else do
      let next ← fitting (k + 1)
      match b.words[next]? with
      | none => return none
      | some w => scan b turns next w

def next? (b : Bitmap) (turns start : Nat) : Except Trouble (Option Nat) :=
  match b.words[start / 64]? with
  | none => return none
  | some w => do
    let mask ← shifted (~~~0) (start % 64)
    scan b turns (start / 64) (w &&& mask)

/-- Each search starts one past what the search before it has found. A turn is one search. -/
def positionsFrom (b : Bitmap) : Nat → Nat → Except Trouble (List Nat)
  | 0, _ => throw .unfinished
  | turns + 1, start => do
    match ← next? b b.words.size start with
    | none => return []
    | some p =>
      let later ← fitting (p + 1)
      let rest ← positionsFrom b turns later
      return p :: rest

def positions (b : Bitmap) (turns : Nat) : Except Trouble (List Nat) := positionsFrom b turns 0

/-! ### Agreement -/

theorem ok_bind {α β : Type} (a : α) (f : α → Except Trouble β) : (.ok a >>= f) = f a := rfl

theorem fitting_of_lt {n : Nat} (h : n < positionLimit) : fitting n = .ok n := if_pos h

/-- The number of words up to that of a position. -/
theorem fitting_words {p : Nat} (h : p < positionLimit) :
    fitting (p / 64 + 1) = .ok (p / 64 + 1) := by
  apply fitting_of_lt
  unfold positionLimit at h ⊢
  omega

theorem shifted_one (p : Nat) : shifted 1 (p % 64) = .ok (Word.mask (p % 64)) :=
  if_pos (Nat.mod_lt p (by decide))

theorem shifted_all (p : Nat) : shifted (~~~0) (p % 64) = .ok (Word.upFrom (p % 64)) :=
  if_pos (Nat.mod_lt p (by decide))

theorem getElem?_words {b : Bitmap} {k : Nat} (h : k < b.words.size) :
    b.words[k]? = some (b.word k) := by
  simp [word, Array.getD_eq_getD_getElem?, h]

theorem wordAt_of_lt {words : Array UInt64} {k : Nat} (h : k < words.size) :
    wordAt words k = .ok (words.getD k 0) := by
  simp [wordAt, Array.getD_eq_getD_getElem?, h]

theorem put_of_lt {words : Array UInt64} {k : Nat} (h : k < words.size) (w : UInt64) :
    put words k w = .ok (words.setIfInBounds k w) := if_pos h

theorem blank_eq {n : Nat} (h : n < positionLimit) : blank n = .ok (Bitmap.blank n) := by
  unfold blank Bitmap.blank
  split
  next hexact =>
    rw [show (n + 63) / 64 = n / 64 by omega]
    rfl
  next hrest =>
    rw [fitting_words h, show (n + 63) / 64 = n / 64 + 1 by omega]
    rfl

theorem contains_eq (b : Bitmap) (p : Nat) : contains b p = .ok (b.contains p) := by
  unfold contains
  by_cases hword : p / 64 < b.words.size
  · simp only [getElem?_words hword, shifted_one, ok_bind]
    rfl
  · rw [Array.getElem?_eq_none (Nat.not_lt.mp hword),
      contains_of_word_size_le (Nat.not_lt.mp hword)]
    rfl

theorem room_eq (b : Bitmap) {p : Nat} (h : p < positionLimit) :
    room b p = .ok (grown b.words (p / 64 + 1)) := by
  unfold room
  split
  next there =>
    rw [grown, show p / 64 + 1 - b.words.size = 0 by omega]
    simp
  next missing =>
    rw [fitting_words h]
    rfl

theorem insert_eq (b : Bitmap) {p : Nat} (h : p < positionLimit) :
    insert b p = .ok (b.insert p) := by
  have hword := lt_size_grown b.words (p / 64)
  simp only [insert, room_eq b h, shifted_one, wordAt_of_lt hword, put_of_lt hword, ok_bind]
  rfl

theorem erase_eq (b : Bitmap) (p : Nat) : erase b p = .ok (b.erase p) := by
  unfold erase Bitmap.erase
  by_cases hword : p / 64 < b.words.size
  · simp only [getElem?_words hword, shifted_one, put_of_lt hword, ok_bind]
    rfl
  · simp only [Array.getElem?_eq_none (Nat.not_lt.mp hword)]
    rfl

theorem foldlM_count_eq {ws : List UInt64} {n : Nat}
    (h : n + ws.foldr (fun w m => Word.count w + m) 0 < positionLimit) :
    ws.foldlM (fun m w => fitting (m + w.toBitVec.cpop.toNat)) n =
      .ok (n + ws.foldr (fun w m => Word.count w + m) 0) := by
  induction ws generalizing n with
  | nil => rfl
  | cons w ws ih =>
    rw [List.foldr_cons, ← Nat.add_assoc] at h ⊢
    rw [List.foldlM_cons, ← Word.count_eq_cpop, fitting_of_lt (by omega)]
    exact ih h

theorem count_eq {b : Bitmap} (h : b.count < positionLimit) : count b = .ok b.count := by
  have hsum := @foldlM_count_eq b.words.toList 0
  rw [Nat.zero_add] at hsum
  exact hsum h

/-- Every word that the search comes to takes one turn, so that as many turns as there are words
from the first one on are enough. -/
theorem scan_eq {b : Bitmap} (hroom : b.Addressable) {turns k : Nat} {w : UInt64}
    (hk : k < b.words.size) (hturns : b.words.size ≤ turns + k) :
    scan b turns k w = .ok (b.scan k w) := by
  unfold Addressable at hroom
  induction turns generalizing k w with
  | zero => omega
  | succ turns ih =>
    rw [scan, Bitmap.scan]
    by_cases hw : w = 0
    · have hnext : fitting (k + 1) = .ok (k + 1) := fitting_of_lt (by omega)
      rw [if_neg (by simpa using hw), Word.lowest?_eq_none.mpr hw, hnext, ok_bind]
      by_cases more : k + 1 < b.words.size
      · simp only [getElem?_words more, if_pos more]
        exact ih more (by omega)
      · simp only [Array.getElem?_eq_none (Nat.not_lt.mp more), if_neg more]
        rfl
    · -- the word's last position is still below the limit, so both the product and the sum fit
      have hlow := Word.lowest?_of_ne_zero hw
      obtain ⟨hlt, -⟩ := Word.lowest?_eq_some hlow
      have hbase : fitting (k * 64) = .ok (k * 64) := fitting_of_lt (by omega)
      have hsum : fitting (k * 64 + w.toBitVec.ctz.toNat) = .ok (k * 64 + w.toBitVec.ctz.toNat) :=
        fitting_of_lt (by omega)
      rw [if_pos (by simpa using hw), hbase, ok_bind, hsum, ok_bind, hlow, Nat.mul_comm k]
      rfl

theorem next?_eq {b : Bitmap} (hroom : b.Addressable) {turns start : Nat}
    (hturns : b.words.size ≤ turns + start / 64) :
    next? b turns start = .ok (b.next? start) := by
  unfold next? Bitmap.next?
  by_cases hk : start / 64 < b.words.size
  · simp only [getElem?_words hk, if_pos hk, shifted_all, ok_bind]
    exact scan_eq hroom hk hturns
  · simp only [Array.getElem?_eq_none (Nat.not_lt.mp hk), if_neg hk]
    rfl

/-- Every position takes one turn, and the search that finds nothing takes another. -/
theorem positionsFrom_eq {b : Bitmap} (hroom : b.Addressable)
    (hbelow : ∀ p, b.contains p = true → p + 1 < positionLimit) {turns start : Nat}
    (hturns : (b.positionsFrom start).length < turns) :
    positionsFrom b turns start = .ok (b.positionsFrom start) := by
  induction turns generalizing start with
  | zero => omega
  | succ turns ih =>
    rw [positionsFrom, next?_eq hroom (Nat.le_add_right ..), ok_bind]
    have hfirst := next?_isFirst b start
    cases found : b.next? start with
    | none =>
      rw [positionsFrom_of_none found]
      rfl
    | some p =>
      rw [found] at hfirst
      rw [positionsFrom_of_some found, List.length_cons] at hturns
      have hrest := @ih (p + 1) (by omega)
      simp only [fitting_of_lt (hbelow p hfirst.2.1), ok_bind, hrest, positionsFrom_of_some found]
      rfl

theorem positions_eq {b : Bitmap} (hroom : b.Addressable)
    (hbelow : ∀ p, b.contains p = true → p + 1 < positionLimit) {turns : Nat}
    (hturns : b.count < turns) : positions b turns = .ok b.positions := by
  rw [count_eq_length_positions] at hturns
  exact positionsFrom_eq hroom hbelow hturns

end Machine

/-- Positions that leave out the last number there is are few enough for a machine word to hold
their count. -/
theorem count_lt_positionLimit {b : Bitmap}
    (hbelow : ∀ p, b.contains p = true → p + 1 < positionLimit) : b.count < positionLimit := by
  have hrange : b.positions ⊆ List.range (positionLimit - 1) := by
    intro p hp
    have := hbelow p (mem_positions.mp hp)
    rw [List.mem_range]
    omega
  have hlength := (List.subperm_of_subset b.nodup_positions hrange).length_le
  rw [List.length_range] at hlength
  rw [count_eq_length_positions]
  exact Nat.lt_of_le_of_lt hlength (by decide)

/-! ### Histories -/

def afterAll (b : Bitmap) (cs : List Change) : Bitmap := cs.foldl after b

theorem Addressable.afterAll {b : Bitmap} (h : b.Addressable) {cs : List Change}
    (hcs : ∀ c ∈ cs, c.Fits) : (b.afterAll cs).Addressable := by
  induction cs generalizing b with
  | nil => exact h
  | cons c cs ih =>
    rw [List.forall_mem_cons] at hcs
    exact ih (h.after hcs.1) hcs.2

end Bitmap

end WorkTracking
