import WorkTracking.Proofs.MemberSet.PlainSets

/-!
Workspaces and plain sets in step. A workspace realizes plain sets if its sets go by the same names,
are of the same kinds, and contain the same values; every command keeps it so, and both sides give
the same reply.
-/
namespace WorkTracking.MemberSet

variable {V : Type} [DecidableEq V] [Hashable V]

def isFrozen : MemberSet → Bool
  | working _ => false
  | frozen _ => true

/-- The set is of the same kind as `x` and contains the same values. -/
def Workspace.Shows (w : Workspace V) (set : MemberSet) (x : PlainSet V) : Prop :=
  set.isFrozen = x.frozen ∧ ∀ v, v ∈ x.members ↔ (w.viewOf set).contains v = true

structure Realizes (digest : WordDigest) (w : Workspace V) (m : PlainSets V) : Prop where
  sound : w.Sound digest
  vocabularies : ∀ u, m.vocabularies u = (w.named.get? u).isSome
  pins : ∀ p, m.pins p = (w.pins.get? p).isSome
  sets : ∀ s, Option.Rel w.Shows (w.sets.get? s) (m.sets s)

/-- The same misuse on both sides, or outcomes that are in step again. -/
def InStep (digest : WordDigest) : Except Misuse (Outcome V) → Except Misuse (PlainOutcome V) → Prop
  | .error e, .error f => e = f
  | .ok o, .ok p => Realizes digest o.workspace p.sets ∧ ∀ r, p.reply = some r → o.reply = r
  | _, _ => False

theorem realizes_empty (digest : WordDigest) : Realizes digest ({} : Workspace V) {} where
  sound := Workspace.sound_empty digest
  vocabularies _ := rfl
  pins _ := rfl
  sets _ := .none

namespace Realizes

variable {digest : WordDigest} {w : Workspace V} {m : PlainSets V}

/-- A name is free on both sides, or taken on both. -/
theorem name_cases (h : Realizes digest w m) (s : String) :
    (w.sets.get? s = none ∧ m.sets s = none) ∨
      ∃ set x, w.sets.get? s = some set ∧ m.sets s = some x ∧ w.Shows set x := by
  have hrel := h.sets s
  generalize w.sets.get? s = a at hrel
  generalize m.sets s = b at hrel
  cases hrel with
  | none => exact .inl ⟨rfl, rfl⟩
  | some hshows => exact .inr ⟨_, _, rfl, rfl, hshows⟩

theorem kind_cases (h : Realizes digest w m) (s : String) :
    (w.sets.get? s = none ∧ m.sets s = none) ∨
      (∃ set x, w.sets.get? s = some (.working set) ∧ m.sets s = some ⟨false, x⟩ ∧
        ∀ v, v ∈ x ↔ set.has (w.vocabularyAt set.vocabulary) v = true) ∨
      ∃ set x, w.sets.get? s = some (.frozen set) ∧ m.sets s = some ⟨true, x⟩ := by
  rcases h.name_cases s with hnone | ⟨set, ⟨frozen, x⟩, hset, hx, hkind, hmem⟩
  · exact .inl hnone
  · cases set with
    | working set =>
      obtain rfl : frozen = false := hkind.symm
      exact .inr (.inl ⟨set, x, hset, hx, hmem⟩)
    | frozen set =>
      obtain rfl : frozen = true := hkind.symm
      exact .inr (.inr ⟨set, x, hset, hx⟩)

/-- What is read off a set is what is read off the plain set. -/
theorem reading_eq (h : Realizes digest w m) (s : String) :
    (w.view s).map SetView.reading = (m.lookup s).map PlainSet.reading := by
  rw [Workspace.view_eq, PlainSets.lookup]
  rcases h.name_cases s with ⟨hset, hx⟩ | ⟨set, x, hset, hx, -, hmem⟩
  · rw [hset, hx]
    rfl
  · have hg := h.sound.grounded s set hset
    have hc := h.sound.consistent set.vocabulary
    have hcontains (v : V) : (w.viewOf set).contains v = decide (v ∈ x.members) := by
      rw [Bool.eq_iff_iff, ← hmem, decide_eq_true_iff]
    have hsize : (w.viewOf set).size = x.members.card := SetView.size_eq_card hc hg hmem
    have hempty : (w.viewOf set).isEmpty = decide (x.members = ∅) := by
      rw [SetView.isEmpty_eq_size hg, hsize, Bool.eq_iff_iff, beq_iff_eq, Finset.card_eq_zero,
        decide_eq_true_iff]
    have hvalues (vs : List V) :
        (w.viewOf set).containsValues vs = decide (∀ v ∈ vs, v ∈ x.members) := by
      rw [Bool.eq_iff_iff, SetView.containsValues, List.all_eq_true, decide_eq_true_iff]
      simp only [hmem]
    rw [hset, hx]
    change Except.ok _ = Except.ok _
    simp only [SetView.reading, PlainSet.reading, hsize, hempty, Except.ok.injEq,
      Reading.mk.injEq, true_and]
    exact ⟨funext hcontains, funext hvalues⟩

/-! ### Changes on both sides -/

theorem put (h : Realizes digest w m) (s : String) {set : MemberSet} {x : PlainSet V}
    (known : set.vocabulary < w.vocabularies.size)
    (grounded : set.Grounded digest (w.vocabularyAt set.vocabulary)) (shows : w.Shows set x) :
    Realizes digest (w.setSet s set) (m.put s x) where
  sound := h.sound.setSet s known grounded
  vocabularies := h.vocabularies
  pins := h.pins
  sets t := by
    rw [Workspace.get?_setSet, PlainSets.put]
    simp only [Function.update_apply, beq_iff_eq]
    by_cases hst : s = t
    · rw [if_pos hst, if_pos hst.symm]
      exact .some shows
    · rw [if_neg hst, if_neg (Ne.symm hst)]
      exact h.sets t

/-- Growth of a vocabulary shows in no set. -/
theorem grow (h : Realizes digest w m) {k : Nat} (known : k < w.vocabularies.size)
    (rs : List (Registration V)) :
    Realizes digest (w.setVocabulary ((w.vocabularyAt k).afterAll rs)) m where
  sound := h.sound.grow known rs
  vocabularies := h.vocabularies
  pins := h.pins
  sets t := by
    change Option.Rel _ (w.sets.get? t) _
    rcases h.name_cases t with ⟨hset, hx⟩ | ⟨set, x, hset, hx, hkind, hmem⟩
    · rw [hset, hx]
      exact .none
    · rw [hset, hx]
      refine .some ⟨hkind, fun v => ?_⟩
      rw [hmem, Workspace.viewOf, Workspace.viewOf, Workspace.vocabularyAt_grown h.sound known,
        SetView.contains_afterAll (h.sound.consistent _) (h.sound.grounded t set hset)]

theorem add (h : Realizes digest w m) {s : String} {set : WorkingSet} {x y : Finset V}
    (hset : w.sets.get? s = some (.working set))
    (hx : ∀ v, v ∈ x ↔ set.has (w.vocabularyAt set.vocabulary) v = true) {vs : List V}
    (hy : ∀ v, v ∈ y ↔ v ∈ vs) (reply : Bool → Reply V) :
    InStep digest (.ok (w.addTo s set vs reply)) (.ok (m.addTo s x y reply)) := by
  have known : set.vocabulary < w.vocabularies.size := h.sound.known s _ hset
  obtain ⟨-, -, hground, hhas, hchanged⟩ :=
    WorkingSet.insertAll_spec (h.sound.consistent set.vocabulary) (h.sound.grounded s _ hset) vs
  obtain ⟨hid, hvoc⟩ := Workspace.vocabularyAt_added h.sound hset vs
  constructor
  · rw [Workspace.addTo_workspace h.sound hset]
    refine (h.grow known (vs.map .single)).put s ?_ ?_ ⟨rfl, fun v => ?_⟩
    · rw [Workspace.size_setVocabulary, hid]
      exact known
    · rw [hid, hvoc]
      exact hground
    · rw [Workspace.viewOf, hid, hvoc, Finset.mem_union, hx, hy]
      have := hhas v
      rw [WorkingSet.has] at this
      rw [this, Bool.or_eq_true, decide_eq_true_iff]
      exact or_comm
  · intro r hr
    cases hr
    change reply _ = reply _
    rw [hchanged]
    congr 1
    rw [Bool.eq_iff_iff, List.any_eq_true, decide_eq_true_iff, Finset.not_subset]
    simp only [hx, hy, Bool.not_eq_true', Bool.not_eq_true]

theorem erase (h : Realizes digest w m) {s : String} {set : WorkingSet} {x : Finset V}
    (hset : w.sets.get? s = some (.working set))
    (hx : ∀ v, v ∈ x ↔ set.has (w.vocabularyAt set.vocabulary) v = true) (v : V) :
    InStep digest (.ok (w.eraseFrom s v set)) (.ok (m.eraseFrom s v x)) := by
  have known : set.vocabulary < w.vocabularies.size := h.sound.known s _ hset
  have hc := h.sound.consistent set.vocabulary
  have hg := WorkingSet.grounded_erase (h.sound.grounded s _ hset) v
  have hid : (MemberSet.working (set.erase (w.vocabularyAt set.vocabulary) v).set).vocabulary
      = set.vocabulary := WorkingSet.vocabulary_erase v
  constructor
  · refine h.put s ?_ ?_ ⟨rfl, fun a => ?_⟩
    · rw [hid]
      exact known
    · rw [hid]
      exact hg
    · have := WorkingSet.has_erase (s := set) hc v a
      rw [WorkingSet.has] at this
      rw [Workspace.viewOf, hid, this, Finset.mem_erase, hx, Bool.and_eq_true, decide_eq_true_iff]
  · intro r hr
    cases hr
    change Reply.flag _ = Reply.flag _
    rw [WorkingSet.changed_erase]
    congr 1
    rw [Bool.eq_iff_iff, ← hx, decide_eq_true_iff]

theorem clear (h : Realizes digest w m) {s : String} {set : WorkingSet}
    (hset : w.sets.get? s = some (.working set)) :
    InStep digest (.ok (w.clearOut s set)) (.ok (m.clearOut s)) := by
  have known : set.vocabulary < w.vocabularies.size := h.sound.known s _ hset
  constructor
  · refine h.put s known WorkingSet.grounded_clear ⟨rfl, fun v => ?_⟩
    have hnone : (w.viewOf (.working set.clear)).contains v = false := WorkingSet.has_clear v
    rw [hnone]
    exact iff_of_false (Finset.notMem_empty v) Bool.false_ne_true
  · intro r hr
    cases hr
    rfl

theorem addVocabulary (h : Realizes digest w m) (u : String) :
    InStep digest (w.perform digest (.newVocabulary u)) (m.perform (.newVocabulary u)) := by
  refine ⟨⟨h.sound.addVocabulary u, fun v => ?_, h.pins, fun s => ?_⟩, fun r hr => by cases hr; rfl⟩
  · change Function.update m.vocabularies u true v = ((w.named.insert u _).get? v).isSome
    rw [OrderedMap.get?_insert, Function.update_apply]
    simp only [beq_iff_eq]
    by_cases huv : u = v
    · rw [if_pos huv, if_pos huv.symm]
      rfl
    · rw [if_neg huv, if_neg (Ne.symm huv)]
      exact h.vocabularies v
  · have hview (set : MemberSet) : (w.addVocabulary u).viewOf set = w.viewOf set := by
      rw [Workspace.viewOf, Workspace.vocabularyAt_addVocabulary, Workspace.viewOf]
    have hshows : (w.addVocabulary u).Shows = w.Shows := by
      funext set x
      rw [Workspace.Shows, Workspace.Shows, hview]
    change Option.Rel (w.addVocabulary u).Shows (w.sets.get? s) (m.sets s)
    rw [hshows]
    exact h.sets s

theorem setPin (h : Realizes digest w m) (p : String) (pin : Pin V) :
    Realizes digest (w.setPin p pin) { m with pins := Function.update m.pins p true } where
  sound := ⟨h.sound.numbered, h.sound.consistent, h.sound.named, h.sound.known, h.sound.grounded⟩
  vocabularies := h.vocabularies
  pins q := by
    change Function.update m.pins p true q = ((w.pins.insert p pin).get? q).isSome
    rw [OrderedMap.get?_insert, Function.update_apply]
    simp only [beq_iff_eq]
    by_cases hpq : p = q
    · rw [if_pos hpq, if_pos hpq.symm]
      rfl
    · rw [if_neg hpq, if_neg (Ne.symm hpq)]
      exact h.pins q
  sets := h.sets

theorem newSet (h : Realizes digest w m) (s u : String) :
    InStep digest (w.perform digest (.newSet s u)) (m.perform (.newSet s u)) := by
  rw [Workspace.perform, PlainSets.perform, Workspace.vocabulary_eq, PlainSets.vocabulary,
    h.vocabularies]
  cases hu : w.named.get? u with
  | none => exact rfl
  | some k =>
    have hid : (MemberSet.working (.emptyOver (w.vocabularyAt k))).vocabulary = k :=
      h.sound.numbered k
    refine ⟨h.put s ?_ ?_ ⟨rfl, fun v => ?_⟩, fun r hr => by cases hr; rfl⟩
    · rw [hid]
      exact h.sound.named u k hu
    · rw [hid]
      exact WorkingSet.grounded_emptyOver
    · have hnone : (SetView.mk (w.vocabularyAt k)
          (.working (.emptyOver (w.vocabularyAt k)))).contains v = false :=
        WorkingSet.has_emptyOver v
      rw [Workspace.viewOf, hid, hnone]
      exact iff_of_false (Finset.notMem_empty v) Bool.false_ne_true

theorem freeze (h : Realizes digest w m) (f : String) {s : String} {set : WorkingSet}
    {x : Finset V} (hset : w.sets.get? s = some (.working set))
    (hx : ∀ v, v ∈ x ↔ set.has (w.vocabularyAt set.vocabulary) v = true) :
    InStep digest
      (.ok { workspace := w.setSet f (.frozen (set.freeze digest))
             reply := .number (set.freeze digest).size })
      (.ok ⟨m.put f ⟨true, x⟩, some (.number x.card)⟩) := by
  have known : set.vocabulary < w.vocabularies.size := h.sound.known s _ hset
  have hg := h.sound.grounded s _ hset
  have hsize : set.members.count = x.card :=
    SetView.size_eq_card (s := ⟨_, .working set⟩) (h.sound.consistent set.vocabulary) hg hx
  refine ⟨h.put f known (WorkingSet.grounded_freeze hg) ⟨rfl, hx⟩, fun r hr => ?_⟩
  cases hr
  exact congrArg Reply.number hsize

/-! ### Commands -/

/-- Commands that register in a named vocabulary. -/
theorem growth (h : Realizes digest w m) (u : String) (rs : List (Registration V))
    (f : Vocabulary V → Vocabulary.Grown V) (reply : Vocabulary V → Reply V)
    (hf : ∀ x, (f x).vocabulary = x.afterAll rs) :
    InStep digest
      (do let x ← w.vocabulary u; return w.afterGrowth (f x) (reply x))
      (do m.vocabulary u; return ⟨m, none⟩) := by
  rw [Workspace.vocabulary_eq, PlainSets.vocabulary, h.vocabularies]
  cases hu : w.named.get? u with
  | none => exact rfl
  | some k =>
    refine ⟨?_, fun r hr => by cases hr⟩
    change Realizes digest (w.setVocabulary (f (w.vocabularyAt k)).vocabulary) m
    rw [hf]
    exact h.grow (h.sound.named u k hu) rs

/-- Commands that ask for a working set. -/
theorem working (h : Realizes digest w m) (s : String) {F : WorkingSet → Outcome V}
    {G : Finset V → PlainOutcome V}
    (hFG : ∀ set x, w.sets.get? s = some (.working set) →
      (∀ v, v ∈ x ↔ set.has (w.vocabularyAt set.vocabulary) v = true) →
      InStep digest (.ok (F set)) (.ok (G x))) :
    InStep digest (do return F (← w.workingSet s)) (do return G (← m.working s)) := by
  rw [Workspace.workingSet_eq, PlainSets.working]
  rcases h.kind_cases s with ⟨hset, hx⟩ | ⟨set, x, hset, hx, hmem⟩ | ⟨set, x, hset, hx⟩
  · rw [hset, hx]
    exact rfl
  · rw [hset, hx]
    exact hFG set x hset hmem
  · rw [hset, hx]
    exact rfl

/-- Commands that frozen sets refuse. -/
theorem attempt (h : Realizes digest w m) (s : String) (operation : Operation)
    {F : WorkingSet → Outcome V} {G : Finset V → PlainOutcome V}
    (hFG : ∀ set x, w.sets.get? s = some (.working set) →
      (∀ v, v ∈ x ↔ set.has (w.vocabularyAt set.vocabulary) v = true) →
      InStep digest (.ok (F set)) (.ok (G x))) :
    InStep digest (w.attempt s operation F) (m.attempt s operation G) := by
  rw [Workspace.attempt_eq, PlainSets.attempt]
  rcases h.kind_cases s with ⟨hset, hx⟩ | ⟨set, x, hset, hx, hmem⟩ | ⟨set, x, hset, hx⟩
  · rw [hset, hx]
    exact rfl
  · rw [hset, hx]
    exact hFG set x hset hmem
  · rw [hset, hx]
    exact ⟨h, fun r hr => by cases hr; rfl⟩

/-- Commands that sets of both kinds refuse. -/
theorem refuse (h : Realizes digest w m) (s : String) (operation : Operation) :
    InStep digest (w.refuse s operation) (m.refuse s operation) := by
  rw [Workspace.refuse_eq, PlainSets.refuse]
  rcases h.kind_cases s with ⟨hset, hx⟩ | ⟨set, x, hset, hx, -⟩ | ⟨set, x, hset, hx⟩
  · rw [hset, hx]
    exact rfl
  · rw [hset, hx]
    exact ⟨h, fun r hr => by cases hr; rfl⟩
  · rw [hset, hx]
    exact ⟨h, fun r hr => by cases hr; rfl⟩

/-- The members of one set added to another, or to itself. -/
theorem insertMembers (h : Realizes digest w m) (s t : String) :
    InStep digest (w.perform digest (.insertMembers s t)) (m.perform (.insertMembers s t)) := by
  rw [Workspace.perform, PlainSets.perform, Workspace.view_eq, PlainSets.lookup]
  rcases h.name_cases t with ⟨hset, hx⟩ | ⟨set, x, hset, hx, -, hmem⟩
  · rw [hset, hx, Workspace.workingSet_eq, PlainSets.working]
    rcases h.kind_cases s with ⟨hset, hx⟩ | ⟨set, x, hset, hx, -⟩ | ⟨set, x, hset, hx⟩ <;>
      · rw [hset, hx]
        exact rfl
  · have hlist (v : V) : v ∈ x.members ↔ v ∈ (w.viewOf set).toList := by
      rw [hmem, SetView.mem_toList_iff (h.sound.consistent set.vocabulary)
        (h.sound.grounded t set hset)]
    rw [hset, hx]
    exact h.working s fun own y hown hy => h.add hown hy hlist .flag

theorem perform (h : Realizes digest w m) (c : Command V) :
    InStep digest (w.perform digest c) (m.perform c) := by
  have hsingle (v : V) : ∀ a, a ∈ ({v} : Finset V) ↔ a ∈ [v] := by simp
  have hlist (vs : List V) : ∀ a, a ∈ vs.toFinset ↔ a ∈ vs := fun a => List.mem_toFinset
  cases c with
  | newVocabulary u => exact h.addVocabulary u
  | register u v => exact h.growth u [.single v] (fun x => (x.register v).toGrown) _ fun x => rfl
  | registerRaced u v others =>
    exact h.growth u _ (fun x => (x.registerRaced v others).toGrown) _
      fun x => x.registerRaced_vocabulary v others
  | registerAll u vs => exact h.growth u [.batch vs] (·.registerAll vs) _ fun x => rfl
  | registerProduced u pairs =>
    exact h.growth u _ (·.registerProduced pairs) _ fun x => x.registerProduced_vocabulary pairs
  | pin p u =>
    rw [Workspace.perform, PlainSets.perform, Workspace.vocabulary_eq, PlainSets.vocabulary,
      h.vocabularies]
    cases w.named.get? u with
    | none => exact rfl
    | some k => exact ⟨h.setPin p _, fun r hr => by cases hr⟩
  | copyPin p q =>
    rw [Workspace.perform, PlainSets.perform, Workspace.pinned_eq, PlainSets.pinned, h.pins]
    cases w.pins.get? q with
    | none => exact rfl
    | some pin => exact ⟨h.setPin p _, fun r hr => by cases hr; rfl⟩
  | newSet s u => exact h.newSet s u
  | copySet s t =>
    rw [Workspace.perform, PlainSets.perform, Workspace.memberSet_eq, PlainSets.lookup]
    rcases h.name_cases t with ⟨hset, hx⟩ | ⟨set, x, hset, hx, hshows⟩
    · rw [hset, hx]
      exact rfl
    · rw [hset, hx]
      exact ⟨h.put s (h.sound.known t set hset) (h.sound.grounded t set hset) hshows,
        fun r hr => by cases hr; rfl⟩
  | freeze f s => exact h.working s fun set x hset hx => h.freeze f hset hx
  | insert s v =>
    rw [Workspace.perform]
    simp only [Workspace.insertInto_eq]
    exact h.working s fun set x hset hx => h.add hset hx (hsingle v) .flag
  | erase s v => exact h.working s fun set x hset hx => h.erase hset hx v
  | insertAll s vs => exact h.working s fun set x hset hx => h.add hset hx (hlist vs) .flag
  | insertMembers s t => exact h.insertMembers s t
  | extend s vs => exact h.working s fun set x hset hx => h.add hset hx (hlist vs) fun _ => .done
  | clear s => exact h.working s fun set x hset _ => h.clear hset
  | tryInsert s v =>
    refine h.attempt s .add fun set x hset hx => ?_
    rw [Workspace.insertInto_eq]
    exact h.add hset hx (hsingle v) .flag
  | tryErase s v => exact h.attempt s .remove fun set x hset hx => h.erase hset hx v
  | tryInsertAll s vs =>
    exact h.attempt s .addAll fun set x hset hx => h.add hset hx (hlist vs) .flag
  | tryClear s => exact h.attempt s .clear fun set x hset _ => h.clear hset
  | tryRetainAll s vs => exact h.refuse s .retainAll
  | tryRemoveAll s vs => exact h.refuse s .removeAll
  | walkWhileGrowing s k vs =>
    rw [Workspace.perform, PlainSets.perform, Workspace.view_eq, PlainSets.lookup]
    rcases h.name_cases s with ⟨hset, hx⟩ | ⟨set, x, hset, hx, -⟩
    · rw [hset, hx]
      exact rfl
    · rw [hset, hx]
      exact ⟨h.grow (h.sound.known s set hset) [.batch vs], fun r hr => by cases hr⟩

theorem step (h : Realizes digest w m) (c : Command V) :
    Realizes digest (w.step digest c) (m.step c) := by
  have hc := h.perform c
  rw [Workspace.step, PlainSets.step]
  revert hc
  cases w.perform digest c with
  | error e =>
    cases m.perform c with
    | error f => exact fun _ => h
    | ok p => exact False.elim
  | ok o =>
    cases m.perform c with
    | error f => exact False.elim
    | ok p => exact fun hc => hc.1

theorem run (h : Realizes digest w m) (cs : List (Command V)) :
    Realizes digest (w.run digest cs) (m.run cs) := by
  induction cs generalizing w m with
  | nil => exact h
  | cons c cs ih => exact ih (h.step c)

end Realizes

/-! ### Replies -/

/-- A reply of plain sets is the reply of the workspace, unless it is left open. -/
def Agrees : Except Misuse (Reply V) → Except Misuse (Option (Reply V)) → Prop
  | .error e, .error f => e = f
  | .ok r, .ok q => ∀ p, q = some p → r = p
  | _, _ => False

theorem InStep.agrees {digest : WordDigest} {a : Except Misuse (Outcome V)}
    {b : Except Misuse (PlainOutcome V)} (h : InStep digest a b) :
    Agrees (a.map Outcome.reply) (b.map PlainOutcome.reply) := by
  cases a with
  | error e =>
    cases b with
    | error f => exact h
    | ok p => exact h
  | ok o =>
    cases b with
    | error f => exact h
    | ok p => exact h.2

theorem Realizes.transcript {digest : WordDigest} {w : Workspace V} {m : PlainSets V}
    (h : Realizes digest w m) (cs : List (Command V)) :
    List.Forall₂ Agrees (w.transcript digest cs) (m.transcript cs) := by
  induction cs generalizing w m with
  | nil => exact .nil
  | cons c cs ih => exact .cons (h.perform c).agrees (ih (h.step c))

/-! ### What a command leaves alone -/

omit [DecidableEq V] [Hashable V] in
theorem PlainSets.sets_of_refuse {m : PlainSets V} {s : String} {operation : Operation}
    {o : PlainOutcome V} (h : m.refuse s operation = .ok o) : o.sets = m := by
  unfold refuse at h
  split at h
  next =>
    cases h
    rfl
  next => cases h

omit [DecidableEq V] [Hashable V] in
theorem PlainSets.attempt_cases {m : PlainSets V} {s : String} {operation : Operation}
    {f : Finset V → PlainOutcome V} {o : PlainOutcome V} (h : m.attempt s operation f = .ok o) :
    (∃ x, o = f x) ∨ o.sets = m := by
  unfold attempt at h
  split at h
  next x hx =>
    cases h
    exact .inl ⟨x, rfl⟩
  next =>
    cases h
    exact .inr rfl
  next => cases h

omit [Hashable V] in
/-- A command changes no set but the one it is called on. -/
theorem PlainSets.sets_of_ok {m : PlainSets V} {c : Command V} {o : PlainOutcome V} {s : String}
    (ho : m.perform c = .ok o) (h : c.target? ≠ some s) : o.sets.sets s = m.sets s := by
  have hput {t : String} (ht : some t ≠ some s) (x : PlainSet V) : (m.put t x).sets s = m.sets s :=
    Function.update_of_ne (fun heq => ht (congrArg some heq.symm)) _ _
  have hattempt {t : String} {operation : Operation} {f : Finset V → PlainOutcome V}
      (hf : ∀ x, (f x).sets.sets s = m.sets s) (hok : m.attempt t operation f = .ok o) :
      o.sets.sets s = m.sets s := by
    rcases attempt_cases hok with ⟨x, rfl⟩ | hsame
    · exact hf x
    · rw [hsame]
  cases c with
  | newVocabulary u =>
    cases ho
    rfl
  | register u v | registerRaced u v others | registerAll u vs | registerProduced u pairs
  | pin p u | copyPin p q | walkWhileGrowing t k vs =>
    obtain ⟨_, -, ho⟩ := exists_of_bind_eq_ok ho
    cases ho
    rfl
  | newSet t u | copySet t r | freeze t r | insert t v | erase t v | insertAll t vs | extend t vs
  | clear t =>
    obtain ⟨_, -, ho⟩ := exists_of_bind_eq_ok ho
    cases ho
    exact hput h _
  | insertMembers t r =>
    obtain ⟨_, -, ho⟩ := exists_of_bind_eq_ok ho
    obtain ⟨_, -, ho⟩ := exists_of_bind_eq_ok ho
    cases ho
    exact hput h _
  | tryInsert t v | tryErase t v | tryInsertAll t vs | tryClear t =>
    exact hattempt (fun x => hput h _) ho
  | tryRetainAll t vs | tryRemoveAll t vs => rw [sets_of_refuse ho]

omit [Hashable V] in
theorem PlainSets.sets_step_of_ne (m : PlainSets V) {c : Command V} {s : String}
    (h : c.target? ≠ some s) : (m.step c).sets s = m.sets s := by
  unfold step
  split
  next o ho => exact sets_of_ok ho h
  next => rfl

/-- A refused operation leaves the workspace as it is. -/
theorem Workspace.unchanged_of_refused {digest : WordDigest} {w : Workspace V} {c : Command V}
    {o : Outcome V} {fault : Fault} (ho : w.perform digest c = .ok o)
    (h : o.reply = .refused fault) : o.workspace = w := by
  have hattempt {t : String} {operation : Operation} {f : WorkingSet → Outcome V}
      (hf : ∀ set, (f set).reply ≠ .refused fault) (hok : w.attempt t operation f = .ok o) :
      o.workspace = w := by
    rcases attempt_cases hok with ⟨set, -, rfl⟩ | ⟨refusal, rfl⟩
    · exact absurd h (hf set)
    · rfl
  cases c with
  | newVocabulary u =>
    cases ho
    cases h
  | insertMembers t r =>
    obtain ⟨_, -, ho⟩ := exists_of_bind_eq_ok ho
    obtain ⟨_, -, ho⟩ := exists_of_bind_eq_ok ho
    cases ho
    cases h
  | tryInsert t v | tryErase t v | tryInsertAll t vs | tryClear t =>
    exact hattempt (fun set hset => by cases hset) ho
  | tryRetainAll t vs | tryRemoveAll t vs =>
    rw [perform, refuse_eq] at ho
    split at ho
    next =>
      cases ho
      rfl
    next => cases ho
  | _ =>
    obtain ⟨_, -, ho⟩ := exists_of_bind_eq_ok ho
    cases ho
    cases h

/-- Every run of a workspace answers as the run of plain sets does, and every set reads as the plain
set of its name. A command changes what is read off no set but the one it is called on, and one that
is refused changes nothing. -/
theorem Workspace.behaves_as_plain_sets (digest : WordDigest) (cs : List (Command V)) :
    let w := ({} : Workspace V).run digest cs
    let m := ({} : PlainSets V).run cs
    List.Forall₂ Agrees (({} : Workspace V).transcript digest cs)
      (({} : PlainSets V).transcript cs) ∧
    (∀ s, (w.view s).map SetView.reading = (m.lookup s).map PlainSet.reading) ∧
    (∀ c s, c.target? ≠ some s →
      ((w.step digest c).view s).map SetView.reading = (w.view s).map SetView.reading) ∧
    ∀ c o fault, w.perform digest c = .ok o → o.reply = .refused fault → o.workspace = w := by
  intro w m
  have hrun : Realizes digest w m := (realizes_empty digest).run cs
  refine ⟨(realizes_empty digest).transcript cs, hrun.reading_eq, fun c s hc => ?_,
    fun c o fault => unchanged_of_refused⟩
  rw [(hrun.step c).reading_eq, hrun.reading_eq, PlainSets.lookup, PlainSets.lookup,
    m.sets_step_of_ne hc]

end WorkTracking.MemberSet
