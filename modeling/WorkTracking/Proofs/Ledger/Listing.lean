import WorkTracking.Ledger.Basic
import WorkTracking.Proofs.OrderedMap

/-!
A ledger as the list of its live statements. Every question to a ledger is a question to that list,
opening a statement writes to the list, and a removal takes one entry out of it. Only the last may
change the order of the others, when one of them takes the first place.
-/
namespace WorkTracking.Ledger

open OrderedMap (Keyed write)

variable {S C : Type} [BEq S] [BEq C] {l : Ledger S C}

@[simp] theorem toList_none : ({} : Ledger S C).toList = [] := rfl

@[simp] theorem toList_some (live : Live S C) :
    ({ live := some live } : Ledger S C).toList =
      (live.first.statement, live.first.cursors) ::
        (live.overflow.map OrderedMap.entries).getD [] := rfl

/-! ### Questions -/

theorem contains_eq_any (l : Ledger S C) (s : S) : l.contains s = l.toList.any (·.1 == s) := by
  obtain ⟨_ | ⟨first, _ | overflow⟩⟩ := l <;> rfl

theorem cursors?_eq_bind (l : Ledger S C) (s : S) :
    l.cursors? s = (l.toList.find? (·.1 == s)).bind Prod.snd := by
  obtain ⟨_ | ⟨first, overflow⟩⟩ := l
  · rfl
  · change (if first.statement == s then first.cursors
      else overflow.bind fun o => (o.get? s).bind fun set => set) = _
    rw [toList_some, List.find?_cons]
    cases first.statement == s with
    | true => rfl
    | false =>
      cases overflow with
      | none => rfl
      | some o =>
        change ((o.entries.find? (·.1 == s)).map Prod.snd).bind _ = _
        rw [Option.bind_map]
        rfl

theorem size_eq_length (l : Ledger S C) : l.size = l.toList.length := by
  obtain ⟨_ | ⟨first, _ | overflow⟩⟩ := l
  · rfl
  · rfl
  · exact Nat.add_comm _ _

theorem isEmpty_eq (l : Ledger S C) : l.isEmpty = l.toList.isEmpty := by
  obtain ⟨_ | ⟨first, overflow⟩⟩ := l <;> rfl

/-! ### Changes -/

theorem toList_place [EquivBEq S] (l : Ledger S C) (s : S)
    (change : Option (CursorSet C) → Option (CursorSet C)) :
    (l.place s change).toList = write s (change (l.cursors? s)) l.toList := by
  obtain ⟨_ | ⟨first, overflow⟩⟩ := l
  · simp [place, write, cursors?]
  · rw [cursors?_eq_bind, toList_some, List.find?_cons, write]
    unfold place
    cases hfirst : first.statement == s with
    | true => simp [hfirst]
    | false =>
      simp only [Option.getD_some, hfirst, Bool.false_eq_true, ↓reduceIte, toList_some]
      cases overflow with
      | none => rfl
      | some o =>
        have hget : (o.get? s).getD none = (o.entries.find? (·.1 == s)).bind Prod.snd := by
          rw [OrderedMap.get?, OrderedMap.find?]
          cases o.entries.find? (·.1 == s) <;> rfl
        change _ :: write s (change ((o.get? s).getD none)) o.entries = _
        rw [hget]
        rfl

theorem contains_place [EquivBEq S] (l : Ledger S C) (s t : S)
    (change : Option (CursorSet C) → Option (CursorSet C)) :
    (l.place s change).contains t = (s == t || l.contains t) := by
  rw [contains_eq_any, toList_place, OrderedMap.any_write, contains_eq_any]

theorem cursors?_place [EquivBEq S] (l : Ledger S C) (s t : S)
    (change : Option (CursorSet C) → Option (CursorSet C)) :
    (l.place s change).cursors? t = if s == t then change (l.cursors? s) else l.cursors? t := by
  have hjoin (x : Ledger S C) :
      x.cursors? t = ((x.toList.find? (·.1 == t)).map Prod.snd).join := by
    rw [cursors?_eq_bind]
    cases x.toList.find? (·.1 == t) <;> rfl
  rw [hjoin, toList_place, OrderedMap.find?_write, hjoin l]
  split <;> rfl

theorem toList_unlessEmpty (first : Leading S C) (overflow : Overflow S C) :
    ({ live := some { first, overflow := unlessEmpty overflow } } : Ledger S C).toList =
      (first.statement, first.cursors) :: overflow.entries := by
  unfold unlessEmpty
  cases h : overflow.entries with
  | nil => simp [toList, OrderedMap.isEmpty, h]
  | cons e rest => simp [toList, OrderedMap.isEmpty, h]

theorem promote_empty {overflow : Overflow S C} (h : overflow.entries = []) (choice : Nat) :
    promote choice overflow = none := by
  simp [promote, h]

/-- A promotion takes one of the others out of the overflow map. -/
theorem promote_nonempty {overflow : Overflow S C} (h : overflow.entries ≠ []) (choice : Nat) :
    ∃ e ∈ overflow.entries, promote choice overflow = some (⟨e.1, e.2⟩, overflow.erase e.1) := by
  have hlt : choice % overflow.size < overflow.entries.length :=
    Nat.mod_lt _ (List.length_pos_iff.mpr h)
  refine ⟨overflow.entries[choice % overflow.size], List.getElem_mem hlt, ?_⟩
  rw [promote, List.getElem?_eq_getElem hlt]
  rfl

/-- Any of the others may be the one. -/
theorem promote_any {overflow : Overflow S C} {e : S × Option (CursorSet C)}
    (h : e ∈ overflow.entries) :
    ∃ choice, promote choice overflow = some (⟨e.1, e.2⟩, overflow.erase e.1) := by
  obtain ⟨i, hi, he⟩ := List.getElem_of_mem h
  refine ⟨i, ?_⟩
  have hmod : i % overflow.size = i := Nat.mod_eq_of_lt hi
  rw [promote, hmod, List.getElem?_eq_getElem hi, he]
  rfl

variable [EquivBEq S]

omit [EquivBEq S] in
theorem remove_of_absent {s : S} (h : l.contains s = false) (choice : Nat) :
    l.remove s choice = none := by
  obtain ⟨_ | ⟨first, overflow⟩⟩ := l
  · rfl
  · obtain ⟨hfirst, hothers⟩ := Bool.or_eq_false_iff.mp h
    unfold remove
    simp only [Option.bind_eq_bind, Option.bind_some, hfirst, Bool.false_eq_true, ↓reduceIte]
    cases overflow with
    | none => rfl
    | some o =>
      have hnone : (o.get? s).isSome = false := by
        rw [← OrderedMap.contains_eq_isSome]
        exact hothers
      simp [Option.not_isSome_iff_eq_none.mp (Bool.eq_false_iff.mp hnone)]

/-- A removal takes the entry of its statement out, and hands back the cursors in it. -/
theorem remove_of_present (hl : Keyed l.toList) {s : S} (h : l.contains s = true) (choice : Nat) :
    ∃ r, l.remove s choice = some r ∧ r.cursors = (l.cursors? s).getD .empty ∧
      r.ledger.toList.Perm (l.toList.eraseP (·.1 == s)) := by
  obtain ⟨_ | ⟨first, overflow⟩⟩ := l
  · cases h
  · rw [cursors?_eq_bind, toList_some, List.find?_cons, List.eraseP_cons]
    unfold remove
    simp only [Option.bind_eq_bind, Option.bind_some]
    cases hfirst : first.statement == s with
    | true =>
      simp only [↓reduceIte]
      cases overflow with
      | none => exact ⟨_, rfl, rfl, .nil⟩
      | some o =>
        by_cases hempty : o.entries = []
        · rw [Option.bind_some, promote_empty hempty]
          refine ⟨_, rfl, rfl, ?_⟩
          simp [hempty]
        · obtain ⟨e, he, hpromote⟩ := promote_nonempty hempty choice
          rw [Option.bind_some, hpromote]
          refine ⟨_, rfl, rfl, ?_⟩
          rw [toList_unlessEmpty]
          exact (o.keyed_entries.perm_cons_eraseP he).symm
    | false =>
      have hothers : overflow.any (·.contains s) = true := by
        have h' := h
        rw [contains, Option.any_some, hfirst, Bool.false_or] at h'
        exact h'
      simp only [Bool.false_eq_true, ↓reduceIte]
      cases overflow with
      | none => cases hothers
      | some o =>
        have hsome : (o.get? s).isSome := by
          rw [← OrderedMap.contains_eq_isSome]
          exact hothers
        obtain ⟨cursors, hget⟩ := Option.isSome_iff_exists.mp hsome
        have hfind : (o.entries.find? (·.1 == s)).bind Prod.snd = cursors := by
          rw [OrderedMap.get?, Option.map_eq_some_iff] at hget
          obtain ⟨e, he, rfl⟩ := hget
          rw [← OrderedMap.find?, he]
          rfl
        rw [Option.bind_some, hget]
        refine ⟨_, rfl, ?_, ?_⟩
        · exact congrArg (·.getD .empty) hfind.symm
        · rw [toList_unlessEmpty]
          exact .refl _

end WorkTracking.Ledger
