import WorkTracking.OrderedMap

/-!
Lists of entries with pairwise different keys, in whatever order. What is found under a key does not
depend on the order, and writing to or erasing a key commutes with a change of order.
-/
namespace WorkTracking.OrderedMap

variable {α β : Type} [BEq α]

/-- No two entries have the same key. -/
def Keyed (l : List (α × β)) : Prop := (l.map Prod.fst).Pairwise fun a b => (a == b) = false

theorem keyed_entries (m : OrderedMap α β) : Keyed m.entries := m.distinct

theorem keyed_cons {e : α × β} {l : List (α × β)} :
    Keyed (e :: l) ↔ (∀ f ∈ l, (e.1 == f.1) = false) ∧ Keyed l := by
  simp only [Keyed, List.map_cons, List.pairwise_cons, List.mem_map, forall_exists_index, and_imp,
    forall_apply_eq_imp_iff₂]

section First

variable {k : α} {e : α × β} {l : List (α × β)}

/-- The first entry for a key is the one found. -/
theorem find?_of_first (hl : l.any (·.1 == k) = false) (he : e.1 == k) (l' : List (α × β)) :
    (l ++ e :: l').find? (·.1 == k) = some e := by
  rw [List.find?_eq_some_iff_append]
  refine ⟨he, l, l', rfl, fun d hd => ?_⟩
  simpa using List.any_eq_false.mp hl d hd

theorem write_of_first (hl : l.any (·.1 == k) = false) (he : e.1 == k) (b : β)
    (l' : List (α × β)) : write k b (l ++ e :: l') = l ++ (e.1, b) :: l' := by
  induction l with
  | nil => exact if_pos he
  | cons d rest ih =>
    rw [List.any_cons, Bool.or_eq_false_iff] at hl
    rw [List.cons_append, write, hl.1, ih hl.2]
    rfl

theorem eraseP_of_first (hl : l.any (·.1 == k) = false) (he : e.1 == k) (l' : List (α × β)) :
    (l ++ e :: l').eraseP (·.1 == k) = l ++ l' := by
  rw [List.eraseP_append_right _ (List.any_eq_false.mp hl)]
  exact congrArg (l ++ ·) (List.eraseP_cons_of_pos he)

end First

namespace Keyed

variable [EquivBEq α] {l l' : List (α × β)}

theorem of_perm (h : Keyed l) (hp : l.Perm l') : Keyed l' :=
  (hp.map Prod.fst).pairwise h fun hab => by rw [BEq.comm, hab]

/-- A key tells its entry. -/
theorem eq_of_beq (h : Keyed l) {e f : α × β} (he : e ∈ l) (hf : f ∈ l) (hef : e.1 == f.1) :
    e = f := by
  induction l with
  | nil => cases he
  | cons d rest ih =>
    obtain ⟨hd, hrest⟩ := keyed_cons.mp h
    rcases List.mem_cons.mp he with rfl | he' <;> rcases List.mem_cons.mp hf with rfl | hf'
    · rfl
    · rw [hd f hf'] at hef
      cases hef
    · rw [BEq.comm, hd e he'] at hef
      cases hef
    · exact ih hrest he' hf'

/-- After the entry for `k` come only entries for other keys. -/
theorem later_ne {e : α × β} (h : Keyed (e :: l)) {k : α} (hk : e.1 == k) :
    ∀ f ∈ l, (f.1 == k) = false := by
  intro f hf
  rw [BEq.comm, ← BEq.congr_left hk]
  exact (keyed_cons.mp h).1 f hf

omit [EquivBEq α] in
/-- Before the entry for a key come only entries for other keys. -/
theorem any_of_append {e : α × β} (h : Keyed (l ++ e :: l')) : l.any (·.1 == e.1) = false := by
  unfold Keyed at h
  rw [List.map_append, List.pairwise_append] at h
  rw [List.any_eq_false]
  intro d hd
  simp [h.2.2 d.1 (List.mem_map_of_mem hd) e.1 (by simp)]

theorem find?_eq_some_iff (h : Keyed l) {k : α} {e : α × β} :
    l.find? (·.1 == k) = some e ↔ e ∈ l ∧ e.1 == k := by
  constructor
  · intro hfind
    have hk := List.find?_some hfind
    exact ⟨List.mem_of_find?_eq_some hfind, hk⟩
  · rintro ⟨he, hk⟩
    cases hfind : l.find? (·.1 == k) with
    | none => exact absurd hk (List.find?_eq_none.mp hfind e he)
    | some f =>
      have hf := List.find?_some hfind
      have hef : e.1 == f.1 := BEq.trans hk (BEq.symm hf)
      rw [h.eq_of_beq he (List.mem_of_find?_eq_some hfind) hef]

theorem find?_perm (h : Keyed l) (hp : l.Perm l') (k : α) :
    l.find? (·.1 == k) = l'.find? (·.1 == k) := by
  ext e
  rw [h.find?_eq_some_iff, (h.of_perm hp).find?_eq_some_iff, hp.mem_iff]

theorem eraseP_eq_filter (h : Keyed l) (k : α) :
    l.eraseP (·.1 == k) = l.filter fun e => !(e.1 == k) := by
  induction l with
  | nil => rfl
  | cons d rest ih =>
    rw [List.eraseP_cons, List.filter_cons]
    cases hk : d.1 == k with
    | true =>
      have hkept : ∀ e ∈ rest, (!(e.1 == k)) = true := by
        intro e he
        rw [h.later_ne hk e he]
        rfl
      exact (List.filter_eq_self.mpr hkept).symm
    | false => exact congrArg (d :: ·) (ih (keyed_cons.mp h).2)

theorem eraseP_perm (h : Keyed l) (hp : l.Perm l') (k : α) :
    (l.eraseP (·.1 == k)).Perm (l'.eraseP (·.1 == k)) := by
  rw [h.eraseP_eq_filter, (h.of_perm hp).eraseP_eq_filter]
  exact hp.filter _

/-- An entry taken out and put in front. -/
theorem perm_cons_eraseP (h : Keyed l) {e : α × β} (he : e ∈ l) :
    l.Perm (e :: l.eraseP (·.1 == e.1)) := by
  have hself : e.1 == e.1 := BEq.rfl
  obtain ⟨f, earlier, later, -, hf, hl, herase⟩ :=
    List.exists_of_eraseP (p := fun x => x.1 == e.1) he hself
  have hmem : f ∈ l := by
    rw [hl]
    simp
  have hperm : l.Perm (f :: (earlier ++ later)) := by
    rw [hl]
    exact List.perm_middle
  rw [herase, h.eq_of_beq he hmem (BEq.symm hf)]
  exact hperm

omit [EquivBEq α] in
theorem write_of_absent {k : α} {l : List (α × β)} (hk : l.any (·.1 == k) = false) (b : β) :
    write k b l = l ++ [(k, b)] := by
  induction l with
  | nil => rfl
  | cons d rest ih =>
    rw [List.any_cons, Bool.or_eq_false_iff] at hk
    rw [write, hk.1, ih hk.2]
    rfl

theorem write_of_present (h : Keyed l) {k : α} (hk : l.any (·.1 == k) = true) (b : β) :
    write k b l = l.map fun e => if e.1 == k then (e.1, b) else e := by
  induction l with
  | nil => cases hk
  | cons d rest ih =>
    rw [write, List.map_cons]
    cases here : d.1 == k with
    | true =>
      have hsame : ∀ e ∈ rest, (if e.1 == k then (e.1, b) else e) = e := by
        intro e he
        rw [h.later_ne here e he]
        rfl
      rw [if_pos rfl, if_pos rfl, List.map_congr_left hsame, List.map_id']
    | false =>
      rw [List.any_cons, here, Bool.false_or] at hk
      rw [ih (keyed_cons.mp h).2 hk]
      rfl

theorem write_perm (h : Keyed l) (hp : l.Perm l') (k : α) (b : β) :
    (write k b l).Perm (write k b l') := by
  have hany : l.any (·.1 == k) = l'.any (·.1 == k) := hp.any_eq
  cases hk : l.any (·.1 == k) with
  | true =>
    rw [h.write_of_present hk, (h.of_perm hp).write_of_present (hany ▸ hk)]
    exact hp.map _
  | false =>
    rw [write_of_absent hk, write_of_absent (hany ▸ hk)]
    exact hp.append_right _

end Keyed

/-! ### Maps -/

theorem eq_of_entries {m m' : OrderedMap α β} (h : m.entries = m'.entries) : m = m' := by
  cases m
  cases h
  rfl

theorem isEmpty_eq_false_iff {m : OrderedMap α β} : m.isEmpty = false ↔ m.entries ≠ [] := by
  simp [isEmpty]

theorem isEmpty_insert (m : OrderedMap α β) (k : α) (b : β) : (m.insert k b).isEmpty = false := by
  change (write k b m.entries).isEmpty = false
  cases m.entries with
  | nil => rfl
  | cons e rest =>
    rw [write]
    split <;> rfl

variable [EquivBEq α]

theorem any_write (k a : α) (b : β) (l : List (α × β)) :
    (write k b l).any (·.1 == a) = (k == a || l.any (·.1 == a)) := by
  have hany (l : List (α × β)) :
      l.any (·.1 == a) = ((l.find? (·.1 == a)).map Prod.snd).isSome := by
    rw [Bool.eq_iff_iff]
    simp
  rw [hany, find?_write, hany]
  cases k == a <;> rfl

theorem write_write (k : α) (b c : β) (l : List (α × β)) :
    write k c (write k b l) = write k c l := by
  induction l with
  | nil => simp [write]
  | cons e rest ih => cases here : e.1 == k <;> simp [write, here, ih]

/-- What is written first under a key is lost when the key is written to again. -/
theorem insert_insert (m : OrderedMap α β) (k : α) (b c : β) :
    (m.insert k b).insert k c = m.insert k c :=
  eq_of_entries (write_write k b c m.entries)

omit [EquivBEq α] in
theorem write_of_find? {k : α} {b : β} {l : List (α × β)}
    (h : (l.find? (·.1 == k)).map Prod.snd = some b) : write k b l = l := by
  induction l with
  | nil => cases h
  | cons e rest ih =>
    rw [List.find?_cons] at h
    cases here : e.1 == k with
    | true =>
      rw [here] at h
      cases h
      simp [write, here]
    | false =>
      rw [here] at h
      simp [write, here, ih h]

omit [EquivBEq α] in
/-- Writing the value that is there already changes nothing. -/
theorem insert_of_get? {m : OrderedMap α β} {k : α} {b : β} (h : m.get? k = some b) :
    m.insert k b = m :=
  eq_of_entries (write_of_find? h)

end WorkTracking.OrderedMap
