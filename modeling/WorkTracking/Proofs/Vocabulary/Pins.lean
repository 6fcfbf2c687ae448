import WorkTracking.Proofs.Vocabulary.Registration
import WorkTracking.Vocabulary.Basic

/-!
Pins and the editions published after them. A call publishes one edition if it brings in something
new, and none otherwise; revision and size move together. So a pin stays current just as long as
nothing new is registered, which the sizes tell as well.
-/
namespace WorkTracking.Vocabulary

variable {V : Type} [DecidableEq V] [Hashable V]

/-- All the values are known, so that registering them adds nothing. -/
def Knows (u : Vocabulary V) (vs : List V) : Prop := ∀ v ∈ vs, ∃ i, u.ordinal? v = some i

/-- One edition lies between `u` and `later`: it keeps what was known, and `vs` are in it. -/
structure Publishes (u later : Vocabulary V) (vs : List V) : Prop where
  revision : later.revision = u.revision + 1
  larger : u.size < later.size
  keeps : u.toList <+: later.toList
  knows : later.Knows vs

/-- A call keeps the edition, or publishes one that holds all its values. -/
theorem after_keeps_or_publishes (u : Vocabulary V) (r : Registration V) :
    (u.Knows r.values ∧ u.after r = u) ∨
      (¬ u.Knows r.values ∧ u.Publishes (u.after r) r.values) := by
  rcases u.after_cases r with ⟨hknown, hsame⟩ | ⟨⟨v, hv, hnew⟩, hnext⟩
  · exact .inl ⟨hknown, hsame⟩
  · have hunknown : ¬ u.Knows r.values := by
      intro hknown
      obtain ⟨i, hi⟩ := hknown v hv
      rw [hnew] at hi
      cases hi
    have hle := u.current.size_le_addAll r.values
    have hne := mt (u.current.size_addAll_eq_iff r.values).mp hunknown
    refine .inr ⟨hunknown, ?_⟩
    rw [hnext]
    constructor
    · rfl
    · show u.current.size < (u.current.addAll r.values).size
      omega
    · exact u.current.prefix_addAll r.values
    · exact fun w hw => Edition.exists_ordinal_addAll hw

/-! ### Calls one after another -/

theorem afterAll_of_knows {u : Vocabulary V} {rs : List (Registration V)}
    (h : u.Knows (rs.flatMap Registration.values)) : u.afterAll rs = u := by
  induction rs with
  | nil => rfl
  | cons r rs ih =>
    have hfirst : u.Knows r.values := fun v hv => h v (by simp [hv])
    have hrest : u.Knows (rs.flatMap Registration.values) := fun v hv => h v (by simp_all)
    rcases u.after_keeps_or_publishes r with ⟨-, hsame⟩ | ⟨hunknown, -⟩
    · rw [afterAll_cons, hsame]
      exact ih hrest
    · exact absurd hfirst hunknown

/-- A call publishes at most one edition. -/
theorem revision_afterAll (u : Vocabulary V) (rs : List (Registration V)) :
    u.revision ≤ (u.afterAll rs).revision ∧
      (u.afterAll rs).revision ≤ u.revision + rs.length := by
  induction rs generalizing u with
  | nil => simp
  | cons r rs ih =>
    have hrest := ih (u.after r)
    rw [afterAll_cons, List.length_cons]
    rcases u.after_keeps_or_publishes r with ⟨-, hsame⟩ | ⟨-, hnext⟩
    · rw [hsame] at hrest ⊢
      omega
    · have := hnext.revision
      omega

theorem moved_of_not_knows {u : Vocabulary V} {rs : List (Registration V)}
    (h : ¬ u.Knows (rs.flatMap Registration.values)) :
    u.revision < (u.afterAll rs).revision ∧ u.size < (u.afterAll rs).size := by
  induction rs with
  | nil => exact absurd (by simp [Knows]) h
  | cons r rs ih =>
    rw [afterAll_cons]
    rcases u.after_keeps_or_publishes r with ⟨hknown, hsame⟩ | ⟨-, hnext⟩
    · rw [hsame]
      apply ih
      intro hrest
      apply h
      intro v hv
      rcases List.mem_append.mp hv with hv | hv
      · exact hknown v hv
      · exact hrest v hv
    · -- the first call has moved both, and no later one moves them back
      have hrevision := hnext.revision
      have hlarger := hnext.larger
      have hmono := ((u.after r).revision_afterAll rs).1
      have hsize := (u.after r).size_le_afterAll rs
      omega

theorem isCurrent_pin_iff (u later : Vocabulary V) :
    u.pin.isCurrent later = true ↔ u.id = later.id ∧ u.revision = later.revision := by
  simp [Pin.isCurrent, pin, mark]

/-- A pin is current just if nothing new was registered since. -/
theorem isCurrent_afterAll_iff (u : Vocabulary V) (rs : List (Registration V)) :
    u.pin.isCurrent (u.afterAll rs) = true ↔ u.Knows (rs.flatMap Registration.values) := by
  rw [isCurrent_pin_iff, id_afterAll]
  constructor
  · rintro ⟨-, hsame⟩
    by_contra hunknown
    have := (moved_of_not_knows hunknown).1
    omega
  · intro hknown
    rw [afterAll_of_knows hknown]
    exact ⟨rfl, rfl⟩

theorem size_afterAll_eq_iff (u : Vocabulary V) (rs : List (Registration V)) :
    (u.afterAll rs).size = u.size ↔ u.Knows (rs.flatMap Registration.values) := by
  constructor
  · intro hsame
    by_contra hunknown
    have := (moved_of_not_knows hunknown).2
    omega
  · intro hknown
    rw [afterAll_of_knows hknown]

end WorkTracking.Vocabulary
