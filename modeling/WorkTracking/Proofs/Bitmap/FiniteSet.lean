import Mathlib.Data.Finset.Card
import WorkTracking.Proofs.Bitmap.Machine

/-!
Bitmaps as finite sets of numbers. A bitmap that is changed again and again, by positions within its
words or far beyond them, gives the answers that a finite set gives which is changed in the same
way, and so does a machine at work on it, without trouble.
-/
namespace WorkTracking.Bitmap

/-! ### Answers -/

/-- Whether the position has come in or gone by the change. Clearing answers nothing. -/
def reply (b : Bitmap) : Change → Option Bool
  | .insert p => some (b.insert p).changed
  | .erase p => some (b.erase p).changed
  | .clear => none

def transcript (b : Bitmap) : List Change → List (Option Bool)
  | [] => []
  | c :: cs => b.reply c :: (b.after c).transcript cs

namespace Change

/-- The position that the change is about, if it is about one, is below `n`. -/
def Below (n : Nat) : Change → Prop
  | .insert p | .erase p => p < n
  | .clear => True

theorem Below.fits {n : Nat} (hn : n ≤ positionLimit) {c : Change} (h : c.Below n) : c.Fits := by
  cases c with
  | insert p => exact Nat.lt_of_lt_of_le h hn
  | erase p => exact Nat.lt_of_lt_of_le h hn
  | clear => trivial

def position? : Change → Option Nat
  | .insert p | .erase p => some p
  | .clear => none

/-- What the change makes of a set. -/
def applied (s : Finset Nat) : Change → Finset Nat
  | .insert p => Insert.insert p s
  | .erase p => s.erase p
  | .clear => ∅

/-- Whether the position is a member on one side of the change only. -/
def answer (s : Finset Nat) (c : Change) : Option Bool :=
  c.position?.map fun p => decide (¬ (p ∈ s ↔ p ∈ c.applied s))

def appliedAll (s : Finset Nat) (cs : List Change) : Finset Nat := cs.foldl applied s

def answers (s : Finset Nat) : List Change → List (Option Bool)
  | [] => []
  | c :: cs => c.answer s :: answers (c.applied s) cs

theorem forall_mem_applied {n : Nat} {s : Finset Nat} (hs : ∀ p ∈ s, p < n) {c : Change}
    (hc : c.Below n) : ∀ p ∈ c.applied s, p < n := by
  intro p hp
  cases c with
  | insert q =>
    rcases Finset.mem_insert.mp hp with rfl | hp
    · exact hc
    · exact hs p hp
  | erase q => exact hs p (Finset.mem_of_mem_erase hp)
  | clear => cases hp

theorem forall_mem_appliedAll {n : Nat} {s : Finset Nat} (hs : ∀ p ∈ s, p < n) {cs : List Change}
    (hcs : ∀ c ∈ cs, c.Below n) : ∀ p ∈ appliedAll s cs, p < n := by
  induction cs generalizing s with
  | nil => exact hs
  | cons c cs ih =>
    rw [List.forall_mem_cons] at hcs
    exact ih (forall_mem_applied hs hcs.1) hcs.2

end Change

/-! ### The machine -/

namespace Machine

def change (b : Bitmap) : Change → Except Trouble (Option Bool × Bitmap)
  | .insert p => do
    let u ← insert b p
    return (some u.changed, u.bitmap)
  | .erase p => do
    let u ← erase b p
    return (some u.changed, u.bitmap)
  | .clear => return (none, b.clear)

def changes (b : Bitmap) : List Change → Except Trouble (List (Option Bool) × Bitmap)
  | [] => return ([], b)
  | c :: cs => do
    let (answer, after) ← change b c
    let (answers, last) ← changes after cs
    return (answer :: answers, last)

/-- A bitmap made with room for `n` positions, and changed. -/
def history (n : Nat) (cs : List Change) : Except Trouble (List (Option Bool) × Bitmap) := do
  let b ← blank n
  changes b cs

theorem change_eq (b : Bitmap) {c : Change} (hc : c.Fits) :
    change b c = .ok (b.reply c, b.after c) := by
  cases c with
  | insert p =>
    rw [change, insert_eq b hc]
    rfl
  | erase p =>
    rw [change, erase_eq]
    rfl
  | clear => rfl

theorem changes_eq (b : Bitmap) {cs : List Change} (hcs : ∀ c ∈ cs, c.Fits) :
    changes b cs = .ok (b.transcript cs, b.afterAll cs) := by
  induction cs generalizing b with
  | nil => rfl
  | cons c cs ih =>
    rw [List.forall_mem_cons] at hcs
    simp only [changes, change_eq b hcs.1, ok_bind, ih (b.after c) hcs.2]
    rfl

theorem history_eq {n : Nat} (hn : n < positionLimit) {cs : List Change}
    (hcs : ∀ c ∈ cs, c.Fits) :
    history n cs = .ok ((Bitmap.blank n).transcript cs, (Bitmap.blank n).afterAll cs) := by
  rw [history, blank_eq hn, ok_bind, changes_eq _ hcs]

end Machine

/-! ### Membership -/

/-- The bitmap contains the positions that are members of the set. -/
def Holds (b : Bitmap) (s : Finset Nat) : Prop := ∀ q, b.contains q = decide (q ∈ s)

namespace Holds

variable {b : Bitmap} {s : Finset Nat}

theorem blank (n : Nat) : (blank n).Holds ∅ := by
  intro q
  rw [contains_blank]
  rfl

theorem after (h : b.Holds s) (c : Change) : (b.after c).Holds (c.applied s) := by
  intro q
  cases c with
  | insert p =>
    rw [Bitmap.after, contains_insert, h q, Bool.eq_iff_iff]
    simp [Change.applied]
  | erase p =>
    rw [Bitmap.after, contains_erase, h q, Bool.eq_iff_iff]
    simp [Change.applied]
  | clear =>
    rw [Bitmap.after, contains_clear]
    rfl

theorem reply (h : b.Holds s) (c : Change) : b.reply c = c.answer s := by
  cases c with
  | insert p =>
    rw [Bitmap.reply, changed_insert, h p]
    simp [Change.answer, Change.position?, Change.applied]
  | erase p =>
    rw [Bitmap.reply, changed_erase, h p]
    simp [Change.answer, Change.position?, Change.applied]
  | clear => rfl

theorem afterAll (h : b.Holds s) (cs : List Change) :
    (b.afterAll cs).Holds (Change.appliedAll s cs) := by
  induction cs generalizing b s with
  | nil => exact h
  | cons c cs ih => exact ih (h.after c)

theorem transcript (h : b.Holds s) (cs : List Change) :
    b.transcript cs = Change.answers s cs := by
  induction cs generalizing b s with
  | nil => rfl
  | cons c cs ih => rw [Bitmap.transcript, Change.answers, h.reply c, ih (h.after c)]

theorem count_eq_card (h : b.Holds s) : b.count = s.card := by
  have hmembers : b.positions.toFinset = s := by
    ext p
    rw [List.mem_toFinset, mem_positions, h p, decide_eq_true_iff]
  rw [count_eq_length_positions, ← List.toFinset_card_of_nodup b.nodup_positions, hmembers]

end Holds

/-- The bitmap `b` has come about from room for `n` positions by the changes `cs`, on a machine
without trouble, and is the finite set `s` to all who ask. -/
structure ActsAsSet (n : Nat) (cs : List Change) (b : Bitmap) (s : Finset Nat) : Prop where
  history : Machine.history n cs = .ok (Change.answers ∅ cs, b)
  transcript : (blank n).transcript cs = Change.answers ∅ cs
  member : ∀ q, Machine.contains b q = .ok (b.contains q) ∧ b.contains q = decide (q ∈ s)
  others : ∀ p q, q ≠ p → (b.insert p).bitmap.contains q = b.contains q ∧
    (b.erase p).bitmap.contains q = b.contains q
  cleared : ∀ q, b.clear.contains q = false
  counted : Machine.count b = .ok b.count
  card : b.count = s.card
  size : ∀ p, (b.insert p).bitmap.words.size = max b.words.size (p / 64 + 1) ∧
    (b.erase p).bitmap.words.size = b.words.size

/-- What a machine does with a bitmap in the course of any changes is free of trouble, and a finite
set under the same changes gives the same answers: whether a position has come in or gone, whether
it is there, and how many there are. A change leaves all positions but its own as they are, however
many words it adds. To take a position away adds none, and to ask for one gives an answer and no
other bitmap. -/
theorem behaves_as_finite_set {n : Nat} (hn : n < positionLimit) {cs : List Change}
    (hcs : ∀ c ∈ cs, c.Below (positionLimit - 1)) :
    ActsAsSet n cs ((blank n).afterAll cs) (Change.appliedAll ∅ cs) := by
  have hfits : ∀ c ∈ cs, c.Fits := fun c hc => (hcs c hc).fits (Nat.sub_le ..)
  have hstart := Holds.blank n
  have hend := hstart.afterAll cs
  have hbelow : ∀ p, ((blank n).afterAll cs).contains p = true → p + 1 < positionLimit := by
    intro p hp
    rw [hend p, decide_eq_true_iff] at hp
    exact Nat.add_lt_of_lt_sub (Change.forall_mem_appliedAll (by simp) hcs p hp)
  constructor
  case history => rw [Machine.history_eq hn hfits, hstart.transcript cs]
  case transcript => exact hstart.transcript cs
  case member => exact fun q => ⟨Machine.contains_eq _ q, hend q⟩
  case others =>
    intro p q hne
    rw [contains_insert, contains_erase, beq_false_of_ne hne, bne_iff_ne.mpr hne]
    exact ⟨Bool.false_or _, Bool.true_and _⟩
  case cleared => exact contains_clear _
  case counted => exact Machine.count_eq (count_lt_positionLimit hbelow)
  case card => exact hend.count_eq_card
  case size => exact fun p => ⟨size_insert _ p, size_erase _ p⟩

/-- Room for 8 positions is one word. Position 500 is past it and cannot go, position 700 makes it
eleven words, and they all stay when everything is cleared. -/
theorem behaves_as_finite_set_growing :
    let cs : List Change :=
      [.erase 500, .insert 3, .insert 3, .insert 700, .erase 3, .clear, .insert 130]
    let b : Bitmap := ⟨#[0, 0, 4, 0, 0, 0, 0, 0, 0, 0, 0]⟩
    (∀ c ∈ cs, c.Below (positionLimit - 1)) ∧
      Machine.history 8 cs = .ok ([some false, some true, some false, some true, some true, none,
        some true], b) ∧
      (∀ q, b.contains q = decide (q ∈ ({130} : Finset Nat))) ∧ Machine.count b = .ok 1 := by
  intro cs b
  have hcs : ∀ c ∈ cs, c.Below (positionLimit - 1) := by simp [cs, Change.Below, positionLimit]
  have hb : (blank 8).afterAll cs = b := by cbv
  have hs : Change.appliedAll ∅ cs = {130} := by decide
  have hanswers : Change.answers ∅ cs =
      [some false, some true, some false, some true, some true, none, some true] := by decide
  have hall := behaves_as_finite_set (n := 8) (by decide) hcs
  rw [hb, hs] at hall
  refine ⟨hcs, ?_, fun q => (hall.member q).2, ?_⟩
  · rw [hall.history, hanswers]
  · rw [hall.counted, hall.card]
    rfl

end WorkTracking.Bitmap
