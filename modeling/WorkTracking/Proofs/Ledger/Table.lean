import WorkTracking.Proofs.Ledger.Listing

/-!
Tables of statements: the same actions on a finite map from statements to the places for their
cursors, without a first place and an overflow map. Runs of ledgers and runs of tables go in step,
whichever statements are picked to become first.
-/
namespace WorkTracking.Ledger

open OrderedMap (Keyed)

/-- What changes a ledger. An opened cursor set may be changed in any way; `choice` picks the
statement that becomes first if need be. -/
inductive Action (S C : Type) [BEq C] where
  | register (s : S)
  | openCursors (s : S) (change : CursorSet C → CursorSet C)
  | remove (s : S) (choice : Nat)
  | clear

inductive Result (C : Type) [BEq C] where
  | registered (accepted : Bool)
  | opened (before after : CursorSet C) (healed : Bool)
  | removed (cursors : Option (CursorSet C))
  | cleared

abbrev Table (S C : Type) [BEq S] [BEq C] := OrderedMap S (Option (CursorSet C))

variable {S C : Type} [BEq S] [BEq C]

def act (l : Ledger S C) : Action S C → Ledger S C × Result C
  | .register s =>
    match l.register s with
    | some registered => (registered, .registered true)
    | none => (l, .registered false)
  | .openCursors s change =>
    let opened := l.openCursors s change
    (opened.ledger, .opened opened.before opened.after opened.healed)
  | .remove s choice =>
    match l.remove s choice with
    | some removed => (removed.ledger, .removed (some removed.cursors))
    | none => (l, .removed none)
  | .clear => (l.clear, .cleared)

def run (l : Ledger S C) (as : List (Action S C)) : Ledger S C :=
  as.foldl (fun l a => (l.act a).1) l

def results (l : Ledger S C) : List (Action S C) → List (Result C)
  | [] => []
  | a :: as => (l.act a).2 :: (l.act a).1.results as

namespace Table

def act (m : Table S C) : Action S C → Table S C × Result C
  | .register s =>
    if m.contains s then (m, .registered false) else (m.insert s none, .registered true)
  | .openCursors s change =>
    let before := (m.get? s).join.getD .empty
    (m.insert s (some (change before)), .opened before (change before) (!m.contains s))
  | .remove s _ =>
    match m.get? s with
    | some cursors => (m.erase s, .removed (some (cursors.getD .empty)))
    | none => (m, .removed none)
  | .clear => (.empty, .cleared)

def run (m : Table S C) (as : List (Action S C)) : Table S C :=
  as.foldl (fun m a => (act m a).1) m

def results (m : Table S C) : List (Action S C) → List (Result C)
  | [] => []
  | a :: as => (act m a).2 :: results (act m a).1 as

end Table

/-- The live statements are those of the table, each with the same place for its cursors. -/
def Lists (l : Ledger S C) (m : Table S C) : Prop := l.toList.Perm m.entries

theorem lists_empty : Lists ({} : Ledger S C) .empty := .nil

namespace Lists

variable [EquivBEq S] {l : Ledger S C} {m : Table S C}

theorem keyed (h : Lists l m) : Keyed l.toList := m.keyed_entries.of_perm (List.Perm.symm h)

omit [EquivBEq S] in
theorem contains_eq (h : Lists l m) (s : S) : l.contains s = m.contains s := by
  rw [contains_eq_any]
  exact List.Perm.any_eq h

theorem cursors?_eq (h : Lists l m) (s : S) : l.cursors? s = (m.get? s).join := by
  rw [cursors?_eq_bind, h.keyed.find?_perm h, OrderedMap.get?, OrderedMap.find?]
  cases m.entries.find? (·.1 == s) <;> rfl

theorem place (h : Lists l m) (s : S) (change : Option (CursorSet C) → Option (CursorSet C)) :
    Lists (l.place s change) (m.insert s (change (l.cursors? s))) := by
  rw [Lists, toList_place]
  exact h.keyed.write_perm h s _

/-- An action keeps ledger and table in step, and both give the same result. -/
theorem act (h : Lists l m) (a : Action S C) :
    Lists (l.act a).1 (Table.act m a).1 ∧ (l.act a).2 = (Table.act m a).2 := by
  cases a with
  | register s =>
    rw [Ledger.act, Table.act, register, h.contains_eq]
    cases hs : m.contains s with
    | true => exact ⟨h, rfl⟩
    | false =>
      have hplace := h.place s id
      have hnone : l.cursors? s = none := by
        rw [OrderedMap.contains_eq_isSome] at hs
        rw [h.cursors?_eq, Option.not_isSome_iff_eq_none.mp (Bool.eq_false_iff.mp hs)]
        rfl
      rw [hnone] at hplace
      exact ⟨hplace, rfl⟩
  | openCursors s change =>
    have hplace := h.place s fun set => some (change (set.getD .empty))
    simp only [Ledger.act, Table.act, openCursors, ← h.contains_eq, ← h.cursors?_eq]
    exact ⟨hplace, trivial⟩
  | remove s choice =>
    rw [Ledger.act, Table.act]
    cases hs : m.get? s with
    | none =>
      have habsent : l.contains s = false := by
        rw [h.contains_eq, OrderedMap.contains_eq_isSome, hs]
        rfl
      rw [remove_of_absent habsent]
      exact ⟨h, rfl⟩
    | some cursors =>
      have hpresent : l.contains s = true := by
        rw [h.contains_eq, OrderedMap.contains_eq_isSome, hs]
        rfl
      obtain ⟨r, hr, hcursors, hlist⟩ := remove_of_present h.keyed hpresent choice
      have hsame : r.cursors = cursors.getD .empty := by
        rw [hcursors, h.cursors?_eq, hs]
        rfl
      rw [hr]
      refine ⟨hlist.trans (h.keyed.eraseP_perm h s), ?_⟩
      exact congrArg (fun set => Result.removed (some set)) hsame
  | clear => exact ⟨lists_empty, rfl⟩

theorem run (h : Lists l m) (as : List (Action S C)) : Lists (l.run as) (Table.run m as) := by
  induction as generalizing l m with
  | nil => exact h
  | cons a as ih => exact ih (h.act a).1

theorem results_eq (h : Lists l m) (as : List (Action S C)) :
    l.results as = Table.results m as := by
  induction as generalizing l m with
  | nil => rfl
  | cons a as ih =>
    rw [results, Table.results, (h.act a).2, ih (h.act a).1]

end Lists

/-- What is refused changes nothing. -/
theorem act_refused {l : Ledger S C} {a : Action S C}
    (h : (l.act a).2 = .registered false ∨ (l.act a).2 = .removed none) : (l.act a).1 = l := by
  cases a with
  | register s =>
    simp only [act] at h ⊢
    cases hr : l.register s with
    | none => rfl
    | some registered => simp [hr] at h
  | openCursors s change => simp [act] at h
  | remove s choice =>
    simp only [act] at h ⊢
    cases hr : l.remove s choice with
    | none => rfl
    | some removed => simp [hr] at h
  | clear => simp [act] at h

variable [EquivBEq S]

theorem keyed_act {l : Ledger S C} (h : Keyed l.toList) (a : Action S C) :
    Keyed (l.act a).1.toList := by
  have hlists : Lists l ⟨l.toList, h⟩ := List.Perm.refl _
  exact (hlists.act a).1.keyed

/-- Each of the others may be picked to become first. -/
theorem remove_first {l : Ledger S C} {first : S} (hfirst : l.first? = some first)
    {e : S × Option (CursorSet C)} (he : e ∈ l.toList.tail) :
    ∃ choice r, l.remove first choice = some r ∧ r.ledger.toList.head? = some e := by
  obtain ⟨_ | ⟨leading, overflow⟩⟩ := l
  · cases he
  · obtain rfl : leading.statement = first := Option.some.inj hfirst
    cases overflow with
    | none => cases he
    | some o =>
      obtain ⟨choice, hpromote⟩ := promote_any he
      let rest : Live S C := { first := ⟨e.1, e.2⟩, overflow := unlessEmpty (o.erase e.1) }
      refine ⟨choice, ⟨{ live := some rest }, leading.cursors.getD .empty⟩, ?_, rfl⟩
      simp [remove, hpromote, rest]

/-- Every run of a ledger gives the results of the run of its table, whatever is picked on the way,
and every question to it is answered from the table. The live statements are visited once each. What
is refused changes nothing, and each statement that is live beside the first may become first. -/
theorem answers_as_table (as : List (Action S C)) :
    let l := ({} : Ledger S C).run as
    let m := Table.run (.empty : Table S C) as
    ({} : Ledger S C).results as = Table.results .empty as ∧
    (∀ s, l.contains s = m.contains s ∧ l.cursors? s = (m.get? s).join) ∧
    l.size = m.size ∧ l.isEmpty = m.isEmpty ∧ l.hasStatements = !m.isEmpty ∧
    l.visits.Perm (m.entries.map fun e => (e.1, e.2.getD .empty)) ∧
    (l.visits.map Prod.fst).Pairwise (fun a b => (a == b) = false) ∧
    (∀ a, (l.act a).2 = .registered false ∨ (l.act a).2 = .removed none → (l.act a).1 = l) ∧
    ∀ first, l.first? = some first → ∀ e ∈ l.toList.tail,
      ∃ choice r, l.remove first choice = some r ∧ r.ledger.toList.head? = some e := by
  intro l m
  have h : Lists l m := lists_empty.run as
  have hempty : l.isEmpty = m.isEmpty := by
    rw [isEmpty_eq]
    exact List.Perm.isEmpty_eq h
  have hkeys : l.visits.map Prod.fst = l.toList.map Prod.fst := by
    rw [visits, List.map_map]
    rfl
  refine ⟨lists_empty.results_eq as, fun s => ⟨h.contains_eq s, h.cursors?_eq s⟩, ?_, hempty, ?_,
    List.Perm.map _ h, ?_, fun a => act_refused, fun first hfirst e he => remove_first hfirst he⟩
  · rw [size_eq_length]
    exact List.Perm.length_eq h
  · rw [← hempty, isEmpty, Bool.not_not]
  · rw [hkeys]
    exact h.keyed

/-- A statement healed under its first cursor takes the place of the one removed. -/
theorem answers_as_table_healed :
    let l := ({} : Ledger Nat Nat).run [.register 1, .openCursors 2 (·.insert 7), .remove 1 5]
    l.size = 1 ∧ l.isEmpty = false ∧ l.contains 1 = false ∧
      (l.cursors? 2).map CursorSet.members = some [7] := by
  obtain ⟨-, hreads, hsize, hempty, -⟩ :=
    answers_as_table (S := Nat) (C := Nat)
      [.register 1, .openCursors 2 (·.insert 7), .remove 1 5]
  refine ⟨hsize.trans rfl, hempty.trans rfl, (hreads 1).1.trans rfl, ?_⟩
  rw [(hreads 2).2]
  rfl

end WorkTracking.Ledger
