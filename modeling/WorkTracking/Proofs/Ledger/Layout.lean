import WorkTracking.Proofs.Ledger.Draining

/-!
Where a ledger keeps its live statements. A statement is live from its registration, or from the
opening of its cursor set, until it is removed or everything is forgotten. There is a first place
just while some statement is live, and an overflow map just while some other is live beside it.
-/
namespace WorkTracking.Ledger

open OrderedMap (Keyed)

variable {S C : Type} [BEq S] [BEq C]

/-! ### Live statements -/

/-- Whether `s` is live after an action, when `live` says whether it was before. -/
def Action.leavesLive (s : S) (live : Bool) : Action S C → Bool
  | .register t => t == s || live
  | .openCursors t _ => t == s || live
  | .remove t _ => !(t == s) && live
  | .clear => false

/-- Whether `s` is live after actions taken on a new ledger. -/
def liveAfter (as : List (Action S C)) (s : S) : Bool := as.foldl (Action.leavesLive s) false

/-- A list of all statements of which `live` holds, each named once. -/
structure Names (live : S → Bool) (ss : List S) : Prop where
  distinct : ss.Pairwise fun s t => (s == t) = false
  live_eq : ∀ s, live s = ss.any (· == s)

variable [EquivBEq S]

/-- Different statements that are all in a list are no more than its elements. -/
theorem length_le_of_named {ss ts : List S} (hss : ss.Pairwise fun s t => (s == t) = false)
    (hnamed : ∀ s ∈ ss, ∃ t ∈ ts, t == s) : ss.length ≤ ts.length := by
  induction ss generalizing ts with
  | nil => exact Nat.zero_le _
  | cons s ss ih =>
    obtain ⟨hs, hss⟩ := List.pairwise_cons.mp hss
    obtain ⟨t, ht, hts⟩ := hnamed s (List.mem_cons_self ..)
    -- the equal of `s` is taken out of `ts`; what names a later statement is another
    have hlater : ∀ u ∈ ss, ∃ w ∈ ts.eraseP (· == s), w == u := by
      intro u hu
      obtain ⟨w, hw, hwu⟩ := hnamed u (List.mem_cons_of_mem s hu)
      have hother : ¬ (w == s) = true := by
        rw [BEq.congr_left hwu, BEq.comm, hs u hu]
        exact Bool.false_ne_true
      exact ⟨w, (List.mem_eraseP_of_neg (p := (· == s)) hother).mpr hw, hwu⟩
    have hlength : (ts.eraseP (· == s)).length = ts.length - 1 := List.length_eraseP_of_mem ht hts
    have hpos : 0 < ts.length := List.length_pos_of_mem ht
    have hrest := ih hss hlater
    rw [List.length_cons]
    omega

/-- The number of live statements does not depend on how they are listed. -/
theorem Names.length_eq {live : S → Bool} {ss ts : List S} (hs : Names live ss)
    (ht : Names live ts) : ss.length = ts.length := by
  have hin {us vs : List S} (hu : Names live us) (hv : Names live vs) :
      ∀ s ∈ us, ∃ t ∈ vs, t == s := by
    intro s hmem
    have hlive : live s = true := by
      rw [hu.live_eq]
      exact List.any_eq_true.mpr ⟨s, hmem, BEq.rfl⟩
    rw [hv.live_eq] at hlive
    exact List.any_eq_true.mp hlive
  exact Nat.le_antisymm (length_le_of_named hs.distinct (hin hs ht))
    (length_le_of_named ht.distinct (hin ht hs))

variable {l : Ledger S C}

theorem contains_congr (l : Ledger S C) {s t : S} (h : s == t) : l.contains s = l.contains t := by
  rw [contains_eq_any, contains_eq_any]
  congr 1
  funext e
  exact BEq.congr_right h

/-- An action makes statements live, or no longer live, as it should. -/
theorem contains_act (hl : Keyed l.toList) (a : Action S C) (s : S) :
    (l.act a).1.contains s = a.leavesLive s (l.contains s) := by
  cases a with
  | register t =>
    rw [act, register]
    cases ht : l.contains t with
    | true =>
      change l.contains s = (t == s || l.contains s)
      cases hts : t == s with
      | true => rw [← contains_congr l hts, ht, Bool.true_or]
      | false => rw [Bool.false_or]
    | false => exact contains_place l t s id
  | openCursors t change => exact contains_place l t s _
  | remove t choice => exact (act_remove_others hl t s choice).1
  | clear => rfl

theorem contains_run (as : List (Action S C)) (s : S) :
    (({} : Ledger S C).run as).contains s = liveAfter as s := by
  have hgeneral : ∀ l : Ledger S C, Keyed l.toList →
      (l.run as).contains s = as.foldl (Action.leavesLive s) (l.contains s) := by
    induction as with
    | nil => exact fun _ _ => rfl
    | cons a as ih =>
      intro l hl
      rw [run_cons, ih _ (keyed_act hl a), contains_act hl, List.foldl_cons]
  exact hgeneral {} List.Pairwise.nil

/-! ### Places -/

/-- An overflow map that is there holds something. -/
def Tidy (l : Ledger S C) : Prop := ∀ now ∈ l.live, ∀ o ∈ now.overflow, o.isEmpty = false

omit [EquivBEq S] in
theorem tidy_empty : Tidy ({} : Ledger S C) := by
  rintro now ⟨⟩

omit [EquivBEq S] in
theorem tidy_unlessEmpty (first : Leading S C) (overflow : Overflow S C) :
    Tidy { live := some { first, overflow := unlessEmpty overflow } } := by
  rintro now ⟨⟩ o ho
  simp only [unlessEmpty] at ho
  split at ho
  · cases ho
  next hsome =>
    cases ho
    exact Bool.eq_false_iff.mpr hsome

omit [EquivBEq S] in
theorem Tidy.place (h : l.Tidy) (s : S) (change : Option (CursorSet C) → Option (CursorSet C)) :
    (l.place s change).Tidy := by
  simp only [Ledger.place]
  split
  · rintro now ⟨⟩ o ho
    obtain ⟨_ | live⟩ := l
    · cases ho
    · exact h live rfl o ho
  · rintro now ⟨⟩ o ⟨⟩
    exact OrderedMap.isEmpty_insert ..

omit [EquivBEq S] in
/-- A removal leaves nothing, or drops the overflow map if it has become empty. -/
theorem remove_cases {s : S} {choice : Nat} {r : Removed S C} (h : l.remove s choice = some r) :
    r.ledger = {} ∨ ∃ first overflow,
      r.ledger = { live := some { first, overflow := unlessEmpty overflow } } := by
  obtain ⟨_ | ⟨first, overflow⟩⟩ := l
  · cases h
  · simp only [remove, Option.bind_eq_bind, Option.bind_some] at h
    split at h
    · split at h
      next next rest _ =>
        cases h
        exact .inr ⟨next, rest, rfl⟩
      · cases h
        exact .inl rfl
    · simp only [Option.bind_eq_some_iff] at h
      obtain ⟨o, -, cursors, -, h⟩ := h
      cases h
      exact .inr ⟨first, o.erase s, rfl⟩

omit [EquivBEq S] in
theorem Tidy.act (h : l.Tidy) (a : Action S C) : (l.act a).1.Tidy := by
  cases a with
  | register s =>
    simp only [Ledger.act, register]
    cases l.contains s with
    | true => exact h
    | false => exact h.place s id
  | openCursors s change => exact h.place s _
  | remove s choice =>
    simp only [Ledger.act]
    cases hr : l.remove s choice with
    | none => exact h
    | some r =>
      change r.ledger.Tidy
      obtain hnew | ⟨first, overflow, hnew⟩ := remove_cases hr
      · rw [hnew]
        exact tidy_empty
      · rw [hnew]
        exact tidy_unlessEmpty first overflow
  | clear => exact tidy_empty

omit [EquivBEq S] in
theorem Tidy.run (h : l.Tidy) (as : List (Action S C)) : (l.run as).Tidy := by
  induction as generalizing l with
  | nil => exact h
  | cons a as ih => exact ih (h.act a)

/-- Where a ledger keeps the statements of which `live` holds. -/
structure LaidOut (l : Ledger S C) (live : S → Bool) : Prop where
  none_iff : l.live = none ↔ ∀ s, live s = false
  first_apart : ∀ now ∈ l.live, ∀ o ∈ now.overflow, o.contains now.first.statement = false
  /-- The overflow map is there just while two statements are live. -/
  overflow_iff : (∃ now ∈ l.live, now.overflow.isSome) ↔
    ∃ s t, live s = true ∧ live t = true ∧ (s == t) = false
  overflow_filled : ∀ now ∈ l.live, ∀ o ∈ now.overflow, o.isEmpty = false
  /-- Whatever is picked, a statement is found that can become first. -/
  promoted : ∀ now ∈ l.live, ∀ o ∈ now.overflow, ∀ choice,
    ∃ e ∈ o.entries, promote choice o = some (⟨e.1, e.2⟩, o.erase e.1)
  names : Names live (l.visits.map Prod.fst)
  size_eq : ∀ ss, Names live ss → l.size = ss.length

omit [EquivBEq S] in
theorem map_fst_visits (l : Ledger S C) : l.visits.map Prod.fst = l.toList.map Prod.fst := by
  rw [visits, List.map_map]
  rfl

omit [EquivBEq S] in
theorem names_visits (hl : Keyed l.toList) : Names l.contains (l.visits.map Prod.fst) where
  distinct := by
    rw [map_fst_visits]
    exact hl
  live_eq s := by
    rw [map_fst_visits, List.any_map, contains_eq_any]
    rfl

omit [EquivBEq S] in
theorem live_eq_none_iff [ReflBEq S] (l : Ledger S C) :
    l.live = none ↔ ∀ s, l.contains s = false := by
  obtain ⟨_ | ⟨first, overflow⟩⟩ := l
  · exact iff_of_true rfl fun _ => rfl
  · refine iff_of_false (by simp) fun hnone => ?_
    have hfirst := hnone first.statement
    simp [contains] at hfirst

theorem first_apart (hl : Keyed l.toList) :
    ∀ now ∈ l.live, ∀ o ∈ now.overflow, o.contains now.first.statement = false := by
  rintro ⟨first, _⟩ hnow o ⟨⟩
  obtain ⟨_⟩ := l
  cases hnow
  rw [OrderedMap.contains, List.any_eq_false]
  intro e he
  rw [BEq.comm, (OrderedMap.keyed_cons.mp hl).1 e he]
  exact Bool.false_ne_true

theorem overflow_iff (hl : Keyed l.toList) (ht : l.Tidy) :
    (∃ now ∈ l.live, now.overflow.isSome) ↔
      ∃ s t, l.contains s = true ∧ l.contains t = true ∧ (s == t) = false := by
  constructor
  · rintro ⟨⟨first, _ | o⟩, hnow, hsome⟩
    · cases hsome
    · have hfilled : o.entries ≠ [] := OrderedMap.isEmpty_eq_false_iff.mp (ht _ hnow o rfl)
      obtain ⟨e, he⟩ := List.exists_mem_of_ne_nil o.entries hfilled
      obtain ⟨_⟩ := l
      cases hnow
      refine ⟨first.statement, e.1, ?_, ?_, (OrderedMap.keyed_cons.mp hl).1 e he⟩
      · simp [contains]
      · rw [contains_eq_any, List.any_eq_true]
        exact ⟨e, List.mem_cons_of_mem _ he, BEq.rfl⟩
  · rintro ⟨s, t, hs, ht, hst⟩
    obtain ⟨_ | ⟨first, _ | o⟩⟩ := l
    · cases hs
    · simp only [contains, Option.any_some, Option.any_none, Bool.or_false] at hs ht
      rw [BEq.trans (BEq.symm hs) ht] at hst
      cases hst
    · exact ⟨_, rfl, rfl⟩

/-- After any actions, whichever statements were picked to become first, a ledger has a first place
just while something is live, an overflow map just while two statements are live, and neither holds
a statement of the other. Its size is the number of live statements. -/
theorem laid_out_by_liveness (as : List (Action S C)) :
    (({} : Ledger S C).run as).LaidOut (liveAfter as) := by
  have hl : Keyed (({} : Ledger S C).run as).toList := (lists_empty.run as).keyed
  have ht : (({} : Ledger S C).run as).Tidy := tidy_empty.run as
  have hlive : (({} : Ledger S C).run as).contains = liveAfter as := funext (contains_run as)
  rw [← hlive]
  refine ⟨live_eq_none_iff _, first_apart hl, overflow_iff hl ht, ht,
    fun now hnow o ho choice => ?_, names_visits hl, fun ss hss => ?_⟩
  · exact promote_nonempty (OrderedMap.isEmpty_eq_false_iff.mp (ht now hnow o ho)) choice
  · rw [size_eq_length, ← (names_visits hl).length_eq hss, map_fst_visits, List.length_map]

/-- Of three statements the first is removed, and one that is not live; the others are two. -/
theorem laid_out_by_liveness_promoted :
    let as : List (Action Nat Nat) := [.register 1, .openCursors 2 (·.insert 7), .register 3,
      .remove 1 1, .remove 4 0]
    let l := ({} : Ledger Nat Nat).run as
    Names (liveAfter as) [2, 3] ∧ l.size = 2 ∧ l.live ≠ none ∧
      ∃ now ∈ l.live, now.overflow.isSome := by
  intro as l
  have hlaid : l.LaidOut (liveAfter as) := laid_out_by_liveness as
  have hnames : Names (liveAfter as) [2, 3] := by
    refine ⟨by decide, fun s => ?_⟩
    by_cases hremoved : s = 1 ∨ s = 4
    · rcases hremoved with rfl | rfl <;> rfl
    · have h1 : (1 == s) = false := beq_false_of_ne fun h => hremoved (.inl h.symm)
      have h4 : (4 == s) = false := beq_false_of_ne fun h => hremoved (.inr h.symm)
      simp [as, liveAfter, Action.leavesLive, h1, h4, Bool.or_comm]
  refine ⟨hnames, hlaid.size_eq [2, 3] hnames, fun hnone => ?_, ?_⟩
  · have hdead := hlaid.none_iff.mp hnone 2
    cases hdead
  · exact hlaid.overflow_iff.mpr ⟨2, 3, rfl, rfl, rfl⟩

end WorkTracking.Ledger
