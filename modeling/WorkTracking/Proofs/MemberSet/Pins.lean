import WorkTracking.Proofs.MemberSet.History
import WorkTracking.Proofs.Vocabulary.Pins

/-!
Pins in the course of a run. A pin keeps showing the edition that it was made of, until another one
is kept under its name. That edition is the one its vocabulary publishes as long as no command
brings in a new value, whichever commands there are and whatever they are given.
-/
namespace WorkTracking.MemberSet

variable {V : Type} [DecidableEq V] [Hashable V]

/-- The name under which a command keeps a pin. -/
def Command.pinned? : Command V → Option String
  | .pin p _ | .copyPin p _ => some p
  | _ => none

namespace Workspace

variable {digest : WordDigest} {w : Workspace V}

/-! ### Which pin goes by which name -/

theorem pins_of_ok {c : Command V} {o : Outcome V} (hc : c.pinned? = none)
    (ho : w.perform digest c = .ok o) : o.workspace.pins = w.pins := by
  have hattempt {s : String} {operation : Operation} {f : WorkingSet → Outcome V}
      (hf : ∀ set, (f set).workspace.pins = w.pins)
      (hok : w.attempt s operation f = .ok o) : o.workspace.pins = w.pins := by
    rcases attempt_cases hok with ⟨set, -, rfl⟩ | ⟨fault, rfl⟩
    · exact hf set
    · rfl
  cases c with
  | pin p u | copyPin p q => cases hc
  | newVocabulary u =>
    cases ho
    rfl
  | register u v | registerRaced u v others | registerAll u vs | registerProduced u pairs
  | walkWhileGrowing s k vs | newSet s u | copySet s t | freeze f s | insert s v | erase s v
  | insertAll s vs | extend s vs | clear s =>
    obtain ⟨_, -, ho⟩ := exists_of_bind_eq_ok ho
    cases ho
    rfl
  | insertMembers s t =>
    obtain ⟨_, -, ho⟩ := exists_of_bind_eq_ok ho
    obtain ⟨_, -, ho⟩ := exists_of_bind_eq_ok ho
    cases ho
    rfl
  | tryInsert s v | tryErase s v | tryInsertAll s vs | tryClear s =>
    exact hattempt (fun _ => rfl) ho
  | tryRetainAll s vs | tryRemoveAll s vs =>
    rw [perform, refuse_eq] at ho
    split at ho <;> cases ho
    rfl

/-- A command changes the pin under the name that it keeps one under, or none. -/
theorem get?_pins_step {c : Command V} {p : String} (h : c.pinned? ≠ some p) :
    (w.step digest c).pins.get? p = w.pins.get? p := by
  have hother {q : String} (hq : q ≠ p) (pin : Pin V) :
      (w.setPin q pin).pins.get? p = w.pins.get? p := by
    simp [setPin, OrderedMap.get?_insert, hq]
  cases ho : w.perform digest c with
  | error e => rw [step_of_error ho]
  | ok o =>
    rw [step_of_ok ho]
    cases c with
    | pin q u | copyPin q r =>
      have hq : q ≠ p := by simpa [Command.pinned?] using h
      obtain ⟨_, -, ho⟩ := exists_of_bind_eq_ok ho
      cases ho
      exact hother hq _
    | _ => rw [pins_of_ok rfl ho]

theorem get?_pins_run {cs : List (Command V)} {p : String} (h : ∀ c ∈ cs, c.pinned? ≠ some p) :
    (w.run digest cs).pins.get? p = w.pins.get? p := by
  induction cs generalizing w with
  | nil => rfl
  | cons c cs ih =>
    rw [run_cons, ih fun d hd => h d (List.mem_cons_of_mem c hd)]
    exact get?_pins_step (h c (List.mem_cons_self ..))

theorem step_pin {p u : String} {k : Nat} (hu : w.named.get? u = some k) :
    w.step digest (.pin p u) = w.setPin p (w.vocabularyAt k).pin := by
  have hok : w.perform digest (.pin p u) = .ok
      { workspace := w.setPin p (w.vocabularyAt k).pin
        reply := .number (w.vocabularyAt k).size } := by
    rw [perform, vocabulary_eq, hu]
    rfl
  rw [step_of_ok hok]

/-! ### Pins and growth -/

/-- The commands `ds` in the workspace `w` and a pin that was made there, under the name `p`, of the
vocabulary number `k`. -/
structure CurrentUntilGrowth [Rendered V] (digest : WordDigest) (w : Workspace V) (p : String)
    (k : Nat) (ds : List (Command V)) (pin : Pin V) : Prop where
  made : w.pins.get? p = some pin
  current_iff : pin.isCurrent ((w.run digest ds).vocabularyAt k) = true ↔
    (w.vocabularyAt k).Knows ((w.history digest k ds).flatMap Registration.values)
  size_iff : pin.isCurrent ((w.run digest ds).vocabularyAt k) = true ↔
    ((w.run digest ds).vocabularyAt k).size = pin.edition.size
  edition : pin.isCurrent ((w.run digest ds).vocabularyAt k) = true →
    ((w.run digest ds).vocabularyAt k).current = pin.edition
  /-- Unless another pin is kept under its name, it is found there, and shows what it showed. -/
  shown : (∀ c ∈ ds, c.pinned? ≠ some p) →
    (∀ q, (w.run digest ds).answer digest (.pin p q) = .ok (q.answer pin.edition)) ∧
    ∀ n, (w.run digest ds).named.get? n = some k →
      (w.run digest ds).answer digest (.isCurrent p n) =
        .ok (.flag (pin.isCurrent ((w.run digest ds).vocabularyAt k)))
  /-- A command for known values keeps the edition; each call of a command publishes at most one. -/
  published : ∀ c,
    let x := (w.run digest ds).vocabularyAt k
    let calls := (w.run digest ds).registrations c k
    let y := ((w.run digest ds).step digest c).vocabularyAt k
    (x.Knows (calls.flatMap Registration.values) → y = x) ∧
    y = x.afterAll calls ∧ y.revision ≤ x.revision + calls.length ∧
    ∀ past r future, calls = past ++ r :: future →
      let z := x.afterAll past
      z.after r = z ∨ z.Publishes (z.after r) r.values

/-- In every run, a pin is the edition that its vocabulary publishes just as long as nothing new is
registered in it, and just as long as the sizes are the same. A command that registers known values
only, or none, keeps that edition, and each call that a command makes publishes at most one, which
holds all values of the call. The pin itself shows what it showed when it was made. -/
theorem pins_current_until_growth [Rendered V] (digest : WordDigest) (cs ds : List (Command V))
    {p u : String} {k : Nat} (hu : (({} : Workspace V).run digest cs).named.get? u = some k) :
    let w := (({} : Workspace V).run digest cs).step digest (.pin p u)
    w.CurrentUntilGrowth digest p k ds (w.vocabularyAt k).pin := by
  intro w
  have hw : w.Sound digest := ((sound_empty digest).run cs).step (.pin p u)
  have hlater : (w.run digest ds).Sound digest := hw.run ds
  have hpin : w.pins.get? p = some (w.vocabularyAt k).pin := by
    have hstep : w = _ := step_pin hu
    simp only [hstep, setPin, OrderedMap.get?_insert, BEq.rfl, if_true]
    rfl
  have hx : (w.run digest ds).vocabularyAt k =
      (w.vocabularyAt k).afterAll (w.history digest k ds) := vocabularyAt_run hw ds k
  have hcurrent : (w.vocabularyAt k).pin.isCurrent ((w.run digest ds).vocabularyAt k) = true ↔
      (w.vocabularyAt k).Knows ((w.history digest k ds).flatMap Registration.values) := by
    rw [hx]
    exact Vocabulary.isCurrent_afterAll_iff _ _
  constructor
  case made => exact hpin
  case current_iff => exact hcurrent
  case size_iff =>
    rw [hcurrent, ← Vocabulary.size_afterAll_eq_iff, ← hx]
    rfl
  case edition =>
    intro h
    rw [hx, Vocabulary.afterAll_of_knows (hcurrent.mp h)]
    rfl
  case shown =>
    intro hkept
    have hthere : (w.run digest ds).pins.get? p = some (w.vocabularyAt k).pin :=
      (get?_pins_run hkept).trans hpin
    constructor
    · intro q
      rw [answer, pinned_eq, hthere]
      rfl
    · intro n hn
      rw [answer, pinned_eq, hthere, vocabulary_eq, hn]
      rfl
  case published =>
    intro c x calls y
    have hy : y = x.afterAll calls := vocabularyAt_step hlater c k
    refine ⟨fun hknown => ?_, hy, ?_, ?_⟩
    · rw [hy, Vocabulary.afterAll_of_knows hknown]
    · rw [hy]
      exact (x.revision_afterAll calls).2
    · intro past r future _ z
      exact (z.after_keeps_or_publishes r).imp And.right And.right

/-- A known value and a removal keep the pinned edition; a value that a working set brings in does
not, and the pin still shows two. -/
theorem pins_current_until_growth_inserted :
    let w := ({} : Workspace Nat).run (fun _ => 0)
      [.newVocabulary "u", .register "u" 1, .register "u" 2, .newSet "s" "u", .pin "p" "u"]
    let kept := w.run (fun _ => 0) [.insert "s" 2, .register "u" 1, .erase "s" 7]
    let grown := w.run (fun _ => 0) [.insert "s" 3]
    let pin := (w.vocabularyAt 0).pin
    pin.isCurrent (kept.vocabularyAt 0) = true ∧ pin.isCurrent (grown.vocabularyAt 0) = false ∧
    (grown.vocabularyAt 0).toList = [1, 2, 3] ∧ pin.edition.toList = [1, 2] := by
  have hall (ds : List (Command Nat)) := @pins_current_until_growth Nat _ _ ⟨toString, toString⟩
    (fun _ => 0) [.newVocabulary "u", .register "u" 1, .register "u" 2, .newSet "s" "u"] ds
    "p" "u" 0 rfl
  obtain ⟨-, -, hkept, -⟩ := hall [.insert "s" 2, .register "u" 1, .erase "s" 7]
  obtain ⟨-, -, hgrown, -⟩ := hall [.insert "s" 3]
  refine ⟨hkept.mpr ?_, Bool.eq_false_iff.mpr (mt hgrown.mp ?_), ?_, ?_⟩
  · cbv
  · cbv
  · cbv
  · cbv

end Workspace

end WorkTracking.MemberSet
