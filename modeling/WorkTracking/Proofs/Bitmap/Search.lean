import Mathlib.Order.Bounds.Basic
import WorkTracking.Proofs.Bitmap.Machine

/-!
The search for positions, on a machine. From every start it comes to an end without trouble and
finds the least position there is from there on. Searches one after another, each from one past what
the last has found, list all positions in ascending order, and this list is the one that is shown.
-/
namespace WorkTracking.Bitmap

theorem IsFirst.eq_some_iff {P : Nat → Bool} {start : Nat} {r : Option Nat}
    (h : IsFirst P start r) {p : Nat} :
    r = some p ↔ IsLeast {q | start ≤ q ∧ P q = true} p := by
  cases r with
  | none =>
    refine ⟨nofun, fun ⟨⟨hstart, hp⟩, _⟩ => ?_⟩
    simp [h p hstart] at hp
  | some first =>
    obtain ⟨hstart, hfirst, hmin⟩ := h
    have hleast : IsLeast {q | start ≤ q ∧ P q = true} first := by
      refine ⟨⟨hstart, hfirst⟩, fun q ⟨hq, hPq⟩ => Nat.not_lt.mp fun hlt => ?_⟩
      simp [hmin q hq hlt] at hPq
    rw [Option.some.injEq]
    exact ⟨fun h => h ▸ hleast, hleast.unique⟩

theorem IsFirst.eq_none_iff {P : Nat → Bool} {start : Nat} {r : Option Nat}
    (h : IsFirst P start r) : r = none ↔ ∀ p, start ≤ p → P p = false := by
  cases r with
  | none => exact ⟨fun _ => h, fun _ => rfl⟩
  | some first =>
    obtain ⟨hstart, hfirst, -⟩ := h
    refine ⟨nofun, fun hnone => ?_⟩
    rw [hnone first hstart] at hfirst
    cases hfirst

theorem isEmpty_iff_positions_eq_nil (b : Bitmap) : b.isEmpty = true ↔ b.positions = [] := by
  rw [isEmpty_eq_count, beq_iff_eq, count_eq_length_positions, List.length_eq_zero_iff]

/-- From every start, the search comes to an end without trouble and finds the least position. -/
structure FindsLeast (b : Bitmap) : Prop where
  machine : ∀ start turns, b.words.size ≤ turns + start / 64 →
    Machine.next? b turns start = .ok (b.next? start)
  some_iff : ∀ start p, b.next? start = some p ↔ IsLeast {q | start ≤ q ∧ b.contains q = true} p
  none_iff : ∀ start, b.next? start = none ↔ ∀ p, start ≤ p → b.contains p = false

/-- Searches one after another come to an end without trouble and list all positions. -/
structure ListsPositions (b : Bitmap) : Prop where
  machine : ∀ turns, b.count < turns → Machine.positions b turns = .ok b.positions
  mem_iff : ∀ p, p ∈ b.positions ↔ b.contains p = true
  ascending : b.positions.Pairwise (· < ·)
  counted : Machine.count b = .ok b.positions.length
  length : b.positions.length = b.count
  quoted : b.quoted = "Bits(" ++ Text.bracketed (b.positions.map toString) ++ ")"
  isEmpty_iff : b.isEmpty = true ↔ b.positions = []

/-- Whatever was done to a bitmap, the search needs no more turns than there are words from its
start on, it meets with no trouble, and it tells the least position from there on, or that there is
none. If no position is the last number there is, then the searches together list the positions,
with one more search than there are positions. -/
theorem searches_find_all_positions {n : Nat} (hn : n < positionLimit) {cs : List Change}
    (hcs : ∀ c ∈ cs, c.Fits) :
    let b := (blank n).afterAll cs
    b.FindsLeast ∧ ((∀ p, b.contains p = true → p + 1 < positionLimit) → b.ListsPositions) := by
  intro b
  have hroom : b.Addressable := (addressable_blank hn).afterAll hcs
  constructor
  · constructor
    case machine => exact fun start turns hturns => Machine.next?_eq hroom hturns
    case some_iff => exact fun start p => (b.next?_isFirst start).eq_some_iff
    case none_iff => exact fun start => (b.next?_isFirst start).eq_none_iff
  · intro hbelow
    have hcount : b.count < positionLimit := count_lt_positionLimit hbelow
    constructor
    case machine => exact fun turns hturns => Machine.positions_eq hroom hbelow hturns
    case mem_iff => exact fun p => mem_positions
    case ascending => exact b.positions_ascending
    case counted => rw [Machine.count_eq hcount, count_eq_length_positions]
    case length => exact b.count_eq_length_positions.symm
    case quoted => rfl
    case isEmpty_iff => exact b.isEmpty_iff_positions_eq_nil

/-- Four positions at the edges of words. The word of a fifth one, which is gone, has become empty,
and the search from 65 on passes it in the second of its three turns. -/
theorem searches_find_all_positions_at_edges :
    let cs : List Change :=
      [.insert 200, .insert 64, .insert 130, .insert 0, .insert 63, .erase 130]
    let b := (blank 0).afterAll cs
    (∀ c ∈ cs, c.Fits) ∧ (∀ p, b.contains p = true → p + 1 < positionLimit) ∧
      Machine.next? b 3 65 = .ok (some 200) ∧
      IsLeast {q | 65 ≤ q ∧ b.contains q = true} 200 ∧
      (∀ p, 201 ≤ p → b.contains p = false) ∧
      Machine.positions b 5 = .ok [0, 63, 64, 200] ∧
      b.quoted = "Bits([0, 63, 64, 200])" := by
  intro cs b
  have hcs : ∀ c ∈ cs, c.Fits := by simp [cs, Change.Fits, positionLimit]
  have hwords : b = ⟨#[0x8000000000000001, 1, 0, 0x100]⟩ := by cbv
  have hsize : b.words.size = 4 := by rw [hwords]; rfl
  have hbelow : ∀ p, b.contains p = true → p + 1 < positionLimit := by
    intro p hp
    have hlt := lt_of_contains hp
    unfold positionLimit
    omega
  have h0 : b.next? 0 = some 0 := by rw [hwords]; cbv
  have h1 : b.next? 1 = some 63 := by rw [hwords]; cbv
  have h64 : b.next? 64 = some 64 := by rw [hwords]; cbv
  have h65 : b.next? 65 = some 200 := by rw [hwords]; cbv
  have h201 : b.next? 201 = none := by rw [hwords]; cbv
  have hlist : b.positions = [0, 63, 64, 200] := by
    rw [positions, positionsFrom_of_some h0, positionsFrom_of_some h1, positionsFrom_of_some h64,
      positionsFrom_of_some h65, positionsFrom_of_none h201]
  have hcount : b.count = 4 := by rw [count_eq_length_positions, hlist]; rfl
  obtain ⟨hsearch, hlists⟩ := searches_find_all_positions (n := 0) (by decide) hcs
  refine ⟨hcs, hbelow, ?_, (hsearch.some_iff 65 200).mp h65, (hsearch.none_iff 201).mp h201, ?_, ?_⟩
  · rw [hsearch.machine 65 3 (show b.words.size ≤ _ by omega), h65]
  · rw [(hlists hbelow).machine 5 (show b.count < 5 by omega), hlist]
  · rw [(hlists hbelow).quoted, hlist]
    rfl

end WorkTracking.Bitmap
