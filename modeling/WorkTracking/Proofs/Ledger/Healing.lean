import WorkTracking.Ledger.Session
import WorkTracking.Proofs.Ledger.Layout

/-!
What opening a cursor set does to a ledger. Under an unknown statement it is a registration and an
opening after that, with a notice; under a live one it makes the set if there is none. Other
statements keep their cursors, and the first statement keeps its place as long as it is live.
-/
namespace WorkTracking.Ledger

open OrderedMap (Keyed)

/-! ### Sessions -/

/-- The statement whose cursor set a command opens. -/
def Command.opens? {T : Type} : Command T → Option T
  | .touch s | .openCursor s _ | .closeCursor s _ | .openAll s _ => some s
  | .register _ | .remove _ _ | .clear => none

/-- What a command does to the cursor set that it opens. -/
def Command.edit {T : Type} [BEq T] : Command T → CursorSet T → CursorSet T
  | .openCursor _ c, set => set.insert c
  | .closeCursor _ c, set => set.erase c
  | .openAll _ cs, set => set.insertAll cs
  | .touch _, set | .register _, set | .remove _ _, set | .clear, set => set

/-- A session whose command opens a cursor set keeps the ledger with the set opened and edited. -/
theorem Session.session_perform {T : Type} [BEq T] [Shown T] [Rendered T] (x : Session T)
    {c : Command T} {s : T} (h : c.opens? = some s) :
    (x.perform c).session = { x with ledger := (x.ledger.openCursors s c.edit).ledger } := by
  cases c with
  | touch s | openCursor s | closeCursor s | openAll s =>
    cases h
    rfl
  | register | remove | clear => cases h

/-- A command is noted just if it opens the cursor set of an unknown statement. -/
theorem Session.notices_perform {T : Type} [BEq T] [Shown T] [Rendered T] (x : Session T)
    (c : Command T) : (x.perform c).notices =
      (c.opens?.filter fun s => !x.ledger.contains s).toList.map Session.healingNotice := by
  cases c with
  | register s =>
    rw [perform]
    split <;> rfl
  | touch s | openCursor s | closeCursor s | openAll s =>
    change (if !x.ledger.contains s then _ else _) = _
    rw [Command.opens?, Option.filter_some]
    split <;> rfl
  | remove s choice =>
    rw [perform, Session.remove]
    split <;> rfl
  | clear => rfl

variable {S C : Type} [BEq S] [BEq C] [EquivBEq S] {l : Ledger S C}

/-! ### Places -/

/-- Two changes to one place, one after the other, are one change. -/
theorem place_place (l : Ledger S C) (s : S)
    (change more : Option (CursorSet C) → Option (CursorSet C)) :
    (l.place s change).place s more = l.place s fun set => more (change set) := by
  obtain ⟨_ | ⟨first, overflow⟩⟩ := l
  · simp [place]
  · cases hfirst : first.statement == s with
    | true => simp [place, hfirst]
    | false => simp [place, hfirst, OrderedMap.get?_insert, OrderedMap.insert_insert]

omit [EquivBEq S] in
/-- A change that leaves the place of a live statement as it is leaves the whole ledger. -/
theorem place_eq_self {s : S} (h : l.contains s = true)
    {change : Option (CursorSet C) → Option (CursorSet C)}
    (hsame : change (l.cursors? s) = l.cursors? s) : l.place s change = l := by
  obtain ⟨_ | ⟨first, overflow⟩⟩ := l
  · cases h
  · cases hfirst : first.statement == s with
    | true =>
      simp only [cursors?, Option.bind_eq_bind, Option.bind_some, hfirst, ↓reduceIte] at hsame
      simp [place, hfirst, hsame]
    | false =>
      simp only [contains, Option.any_some, hfirst, Bool.false_or] at h
      cases overflow with
      | none => cases h
      | some o =>
        rw [Option.any_some, OrderedMap.contains_eq_isSome] at h
        obtain ⟨set, hset⟩ := Option.isSome_iff_exists.mp h
        have hkept : change set = set := by
          simpa [cursors?, hfirst, hset] using hsame
        simp [place, hfirst, hset, hkept, OrderedMap.insert_of_get? hset]

/-! ### Openings -/

omit [EquivBEq S] in
theorem cursors?_of_unknown {s : S} (h : l.contains s = false) : l.cursors? s = none := by
  have hnone : l.toList.find? (·.1 == s) = none := by
    rw [contains_eq_any, List.any_eq_false] at h
    exact List.find?_eq_none.mpr h
  rw [cursors?_eq_bind, hnone]
  rfl

omit [EquivBEq S] in
theorem contains_of_cursors? {s : S} {set : CursorSet C} (h : l.cursors? s = some set) :
    l.contains s = true := by
  by_contra hunknown
  rw [cursors?_of_unknown (Bool.eq_false_iff.mpr hunknown)] at h
  cases h

/-- Two openings of one cursor set are one, except that the second finds the statement known. -/
theorem openCursors_openCursors (l : Ledger S C) (s : S) (change more : CursorSet C → CursorSet C) :
    let opened := l.openCursors s change
    opened.ledger.openCursors s more =
      { ledger := (l.openCursors s fun set => more (change set)).ledger
        before := opened.after
        after := more opened.after
        healed := false } := by
  simp [openCursors, cursors?_place, contains_place, place_place]

/-- After a registration, an opening does what it does without one, except for the notice. -/
theorem openCursors_place_id (l : Ledger S C) (s : S) (change : CursorSet C → CursorSet C) :
    (l.place s id).openCursors s change = { l.openCursors s change with healed := false } := by
  simp [openCursors, cursors?_place, contains_place, place_place]

/-! ### The first statement -/

omit [EquivBEq S] in
theorem head?_visits (l : Ledger S C) : (l.visits.map Prod.fst).head? = l.first? := by
  obtain ⟨_ | live⟩ := l <;> rfl

omit [EquivBEq S] in
theorem first?_place {first : S} (h : l.first? = some first) (s : S)
    (change : Option (CursorSet C) → Option (CursorSet C)) :
    (l.place s change).first? = some first := by
  obtain ⟨_ | live⟩ := l
  · cases h
  · simp only [place]
    split <;> exact h

omit [EquivBEq S] in
theorem first?_remove {first s : S} (h : l.first? = some first) (hs : (first == s) = false)
    {choice : Nat} {r : Removed S C} (hr : l.remove s choice = some r) :
    r.ledger.first? = some first := by
  obtain ⟨_ | live⟩ := l
  · cases h
  · obtain rfl : live.first.statement = first := Option.some.inj h
    simp only [remove, Option.bind_eq_bind, Option.bind_some, hs, Bool.false_eq_true, ↓reduceIte,
      Option.bind_eq_some_iff] at hr
    obtain ⟨o, -, set, -, hr⟩ := hr
    cases hr
    rfl

/-- An action that leaves the first statement live leaves it first. -/
theorem first?_act (hl : Keyed l.toList) {first : S} (h : l.first? = some first)
    {a : Action S C} (hlive : (l.act a).1.contains first = true) :
    (l.act a).1.first? = some first := by
  cases a with
  | register s =>
    simp only [act, register]
    cases l.contains s with
    | true => exact h
    | false => exact first?_place h s id
  | openCursors s change => exact first?_place h s _
  | remove s choice =>
    have hs : (first == s) = false := by
      rw [contains_act hl, Action.leavesLive, Bool.and_eq_true, Bool.not_eq_true'] at hlive
      rw [BEq.comm, hlive.1]
    simp only [act]
    cases hr : l.remove s choice with
    | none => exact h
    | some r => exact first?_remove h hs hr
  | clear => cases hlive

/-- A statement that is first stays first as long as it is live. -/
theorem first?_run (hl : Keyed l.toList) {first : S} (h : l.first? = some first)
    {as : List (Action S C)} (hlive : ∀ n, (l.run (as.take n)).contains first = true) :
    (l.run as).first? = some first := by
  induction as generalizing l with
  | nil => exact h
  | cons a as ih =>
    have hact : (l.act a).1.contains first = true := hlive 1
    exact ih (keyed_act hl a) (first?_act hl h hact) fun n => hlive (n + 1)

/-- What happens to others, and whatever comes in, leaves a statement live. -/
theorem contains_run_of_spared (hl : Keyed l.toList) {s : S} (h : l.contains s = true)
    {as : List (Action S C)} (hspared : ∀ a ∈ as, a.leavesLive s true = true) :
    (l.run as).contains s = true := by
  induction as generalizing l with
  | nil => exact h
  | cons a as ih =>
    refine ih (keyed_act hl a) ?_ fun b hb => hspared b (List.mem_cons_of_mem a hb)
    rw [contains_act hl, h]
    exact hspared a (List.mem_cons_self ..)

/-- When a statement is removed while another is live, one of the others is first after that. -/
theorem remove_leaves_first (hl : Keyed l.toList) {s t : S} (hs : l.contains s = true)
    (ht : l.contains t = true) (hst : (s == t) = false) (choice : Nat) :
    ∃ r e, l.remove s choice = some r ∧ r.ledger.toList.head? = some e ∧ e ∈ l.toList ∧
      (e.1 == s) = false := by
  obtain ⟨r, hr, -, hperm⟩ := remove_of_present hl hs choice
  rw [hl.eraseP_eq_filter] at hperm
  rw [contains_eq_any, List.any_eq_true] at ht
  obtain ⟨f, hf, hft⟩ := ht
  have hkept : f ∈ r.ledger.toList := by
    rw [hperm.mem_iff, List.mem_filter, BEq.congr_left hft, BEq.comm, hst]
    exact ⟨hf, rfl⟩
  obtain ⟨e, he⟩ := Option.isSome_iff_exists.mp (List.isSome_head?.mpr (List.ne_nil_of_mem hkept))
  have hmem := hperm.subset (List.mem_of_mem_head? he)
  rw [List.mem_filter, Bool.not_eq_true'] at hmem
  exact ⟨r, e, hr, he, hmem.1, hmem.2⟩

/-! ### Openings and the first statement -/

/-- What opening the cursor set of `s` does to a ledger. -/
structure Opening (l : Ledger S C) (s : S) : Prop where
  /-- Opening an unknown statement is registering it, which is accepted, and opening it then. -/
  unknown : l.contains s = false → ∃ registered, l.register s = some registered ∧ ∀ change,
    (l.openCursors s change).healed = true ∧ (l.openCursors s change).before = .empty ∧
    registered.openCursors s change = { l.openCursors s change with healed := false }
  known : l.contains s = true → ∀ change, (l.openCursors s change).healed = false ∧
    (l.openCursors s change).ledger.toList.map Prod.fst = l.toList.map Prod.fst
  /-- A set that is there already is left as it is, and so is the ledger. -/
  allocated : ∀ set, l.cursors? s = some set →
    l.openCursors s (fun set => set) = ⟨l, set, set, false⟩
  unallocated : l.contains s = true → l.cursors? s = none →
    (l.openCursors s fun set => set).ledger.cursors? s = some .empty
  again : let touched := l.openCursors s fun set => set
    touched.ledger.openCursors s (fun set => set) =
      ⟨touched.ledger, touched.after, touched.after, false⟩
  others : ∀ change t, (s == t) = false →
    (l.openCursors s change).ledger.contains t = l.contains t ∧
      (l.openCursors s change).ledger.cursors? t = l.cursors? t

theorem opening (l : Ledger S C) (s : S) : l.Opening s where
  unknown h := by
    have hregister : l.register s = some (l.place s id) := by simp [register, h]
    refine ⟨l.place s id, hregister, fun change => ⟨?_, ?_, l.openCursors_place_id s change⟩⟩
    · simp [openCursors, h]
    · simp [openCursors, cursors?_of_unknown h]
  known h change := by
    rw [contains_eq_any] at h
    refine ⟨by simp [openCursors, contains_eq_any, h], ?_⟩
    rw [openCursors, toList_place, OrderedMap.keys_write, h, if_pos rfl]
  allocated set hset := by
    have hplace : (l.place s fun set => some (set.getD .empty)) = l := by
      apply place_eq_self (contains_of_cursors? hset)
      rw [hset]
      rfl
    simp [openCursors, hset, hplace, contains_of_cursors? hset]
  unallocated _ hnone := by
    simp [openCursors, cursors?_place, hnone]
  again := l.openCursors_openCursors s _ _
  others change t ht := by
    simp [openCursors, contains_place, cursors?_place, ht]

/-- What becomes of the statement in the first place. -/
structure FirstKept (l : Ledger S C) : Prop where
  visited : (l.visits.map Prod.fst).head? = l.first?
  /-- It is first as long as it is live, and what happens to others leaves it live. -/
  stays : ∀ first, l.first? = some first → ∀ as : List (Action S C),
    ((∀ a ∈ as, a.leavesLive first true = true) → ∀ n, (l.run (as.take n)).contains first = true) ∧
    ((∀ n, (l.run (as.take n)).contains first = true) → (l.run as).first? = some first)
  /-- When it is removed, another that is live is first, with the cursors it had. -/
  followed : ∀ first, l.first? = some first → ∀ t, l.contains t = true → (first == t) = false →
    ∀ choice, ∃ r e, l.remove first choice = some r ∧ r.ledger.toList.head? = some e ∧
      e ∈ l.toList ∧ (e.1 == first) = false

omit [EquivBEq S] in
theorem contains_first? [ReflBEq S] {first : S} (h : l.first? = some first) :
    l.contains first = true := by
  obtain ⟨_ | live⟩ := l
  · cases h
  · obtain rfl : live.first.statement = first := Option.some.inj h
    simp [contains]

theorem firstKept (hl : Keyed l.toList) : l.FirstKept where
  visited := head?_visits l
  stays first h as := by
    refine ⟨fun hspared n => ?_, first?_run hl h⟩
    have hprefix : ∀ a ∈ as.take n, a.leavesLive first true = true :=
      fun a ha => hspared a (List.mem_of_mem_take ha)
    exact contains_run_of_spared hl (contains_first? h) hprefix
  followed first h t ht hne choice := remove_leaves_first hl (contains_first? h) ht hne choice

/-- What a session keeps and notes where a command opens a cursor set; `.touch s` opens the set of
`s` and leaves it as it is. -/
structure Session.Opens [Shown S] [Rendered S] (x : Session S) : Prop where
  ledger : ∀ c s, c.opens? = some s →
    (x.perform c).session = { x with ledger := (x.ledger.openCursors s c.edit).ledger }
  /-- Under an unknown statement it makes no difference to register it first, but for the notice. -/
  unknown : ∀ c s, c.opens? = some s → x.ledger.contains s = false →
    let registered := (x.perform (.register s)).session
    (registered.perform c).session = (x.perform c).session ∧
      (registered.perform c).reply = (x.perform c).reply
  notices : ∀ c, (x.perform c).notices =
    (c.opens?.filter fun s => !x.ledger.contains s).toList.map Session.healingNotice

theorem Session.opens [Shown S] [Rendered S] (x : Session S) : x.Opens where
  ledger _ _ h := x.session_perform h
  unknown c s h hunknown := by
    have hregister :
        (x.perform (.register s)).session = { x with ledger := x.ledger.place s id } := by
      simp [perform, register, hunknown]
    simp only [hregister]
    cases c with
    | touch | openCursor | closeCursor | openAll =>
      cases h
      simp [perform, change, openCursors_place_id]
    | register | remove | clear => cases h
  notices := x.notices_perform

/-- In every ledger that can be reached, opening the cursor set of an unknown statement registers it
first, and opening that of a live one changes its own place at most, once. The first statement stays
first while it is live. A session keeps the ledger with the set opened, and notes the openings of
unknown statements, and nothing else. -/
theorem opening_registers_once [Shown S] [Rendered S] (as : List (Action S C)) (s : S) :
    (({} : Ledger S C).run as).Opening s ∧ (({} : Ledger S C).run as).FirstKept ∧
      ∀ x : Session S, x.Opens :=
  ⟨opening _ s, firstKept (lists_empty.run as).keyed, Session.opens⟩

/-- A statement that was promoted keeps its set and its place while another is healed beside it, and
is followed by that one. -/
theorem opening_registers_once_promoted :
    let as : List (Action Value Nat) := [.register (.integer 1),
      .openCursors (.integer 2) (·.insert 7), .remove (.integer 1) 0]
    let l := ({} : Ledger Value Nat).run as
    let healed := l.openCursors (.integer 3) (·.insert 8)
    l.first? = some (.integer 2) ∧ l.contains (.integer 3) = false ∧ healed.healed = true ∧
    (healed.ledger.cursors? (.integer 2)).map CursorSet.members = some [7] ∧
    (l.run [.openCursors (.integer 3) (·.insert 8), .register (.integer 4)]).first? =
      some (.integer 2) ∧
    (({} : Session Value).perform (.touch (.integer 3))).session.ledger.contains
      (.integer 3) = true ∧
    (({} : Session Value).perform (.touch (.integer 3))).notices.length = 1 := by
  intro as l healed
  obtain ⟨hopening, hfirst, hsession⟩ :=
    opening_registers_once (S := Value) (C := Nat) as (.integer 3)
  have hunknown : l.contains (.integer 3) = false := by decide
  obtain ⟨_, -, hhealed⟩ := hopening.unknown hunknown
  obtain ⟨hspared, hstays⟩ := hfirst.stays (.integer 2) rfl
    [.openCursors (.integer 3) (·.insert 8), .register (.integer 4)]
  refine ⟨rfl, hunknown, (hhealed _).1, ?_, ?_, ?_, ?_⟩
  · rw [(hopening.others _ (.integer 2) (by decide)).2]
    rfl
  · exact hstays (hspared (by simp [Action.leavesLive]))
  · rw [(hsession _).ledger _ _ rfl]
    rfl
  · rw [(hsession _).notices]
    rfl

end WorkTracking.Ledger
