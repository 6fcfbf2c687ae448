import WorkTracking.MemberSet.Workspace
import WorkTracking.Proofs.MemberSet.Membership

/-!
Runs of a workspace: commands one after another, each with its reply. Whatever a command is, it has
one of seven effects, and from these follows what a run keeps: vocabularies are consistent, and sets
are grounded in the vocabularies they belong to.
-/
namespace WorkTracking.MemberSet

variable {V : Type} [DecidableEq V] [Hashable V]

namespace Workspace

/-- The workspace after a command. A misuse leaves it as it is. -/
def step (digest : WordDigest) (w : Workspace V) (c : Command V) : Workspace V :=
  match w.perform digest c with
  | .ok outcome => outcome.workspace
  | .error _ => w

def run (digest : WordDigest) (w : Workspace V) (cs : List (Command V)) : Workspace V :=
  cs.foldl (step digest) w

/-- What is replied to commands given one after another. -/
def transcript (digest : WordDigest) (w : Workspace V) :
    List (Command V) → List (Except Misuse (Reply V))
  | [] => []
  | c :: cs => (w.perform digest c).map Outcome.reply :: (w.step digest c).transcript digest cs

theorem run_append (digest : WordDigest) (w : Workspace V) (cs ds : List (Command V)) :
    w.run digest (cs ++ ds) = (w.run digest cs).run digest ds :=
  List.foldl_append

theorem run_cons (digest : WordDigest) (w : Workspace V) (c : Command V) (cs : List (Command V)) :
    w.run digest (c :: cs) = (w.step digest c).run digest cs := rfl

/-! ### Which values a command registers -/

/-- The vocabulary of a working set, by number. Frozen sets register nothing. -/
def growing? (w : Workspace V) (s : String) : Option Nat :=
  match w.sets.get? s with
  | some (.working set) => some set.vocabulary
  | _ => none

/-- The members of a set in the order of their ordinals. -/
def membersOf (w : Workspace V) (s : String) : List V :=
  match w.view s with
  | .ok view => view.toList
  | .error _ => []

/-- Calls on the vocabulary number `k`, as they concern the vocabulary number `id`. -/
def callsOn (k : Option Nat) (rs : List (Registration V)) (id : Nat) : List (Registration V) :=
  if k = some id then rs else []

/-- The calls that a command makes on the vocabulary number `id`. -/
def registrations (w : Workspace V) : Command V → Nat → List (Registration V)
  | .register u v => callsOn (w.named.get? u) [.single v]
  | .registerRaced u v others => callsOn (w.named.get? u) ((others ++ [v]).map .single)
  | .registerAll u vs => callsOn (w.named.get? u) [.batch vs]
  | .registerProduced u pairs =>
    callsOn (w.named.get? u) ((pairs.map Prod.fst).map .single ++ [.batch (pairs.map Prod.snd)])
  | .insert s v | .tryInsert s v => callsOn (w.growing? s) [.single v]
  | .insertAll s vs | .tryInsertAll s vs | .extend s vs => callsOn (w.growing? s) (vs.map .single)
  | .insertMembers s t => callsOn (w.growing? s) ((w.membersOf t).map .single)
  | .walkWhileGrowing s _ vs => callsOn ((w.sets.get? s).map MemberSet.vocabulary) [.batch vs]
  | .newVocabulary _ | .pin _ _ | .copyPin _ _ | .newSet _ _ | .copySet _ _ | .freeze _ _
  | .erase _ _ | .clear _ | .tryErase _ _ | .tryClear _ | .tryRetainAll _ _
  | .tryRemoveAll _ _ => fun _ => []

/-! ### Lookups -/

theorem vocabulary_eq (w : Workspace V) (u : String) :
    w.vocabulary u =
      (w.named.get? u).elim (.error (.unknownName u)) fun k => .ok (w.vocabularyAt k) := by
  unfold vocabulary OrderedMap.named
  cases w.named.get? u <;> rfl

theorem pinned_eq (w : Workspace V) (p : String) :
    w.pinned p = (w.pins.get? p).elim (.error (.unknownName p)) .ok := by
  unfold pinned OrderedMap.named
  cases w.pins.get? p <;> rfl

theorem memberSet_eq (w : Workspace V) (s : String) :
    w.memberSet s = (w.sets.get? s).elim (.error (.unknownName s)) .ok := by
  unfold memberSet OrderedMap.named
  cases w.sets.get? s <;> rfl

theorem view_eq (w : Workspace V) (s : String) :
    w.view s = (w.sets.get? s).elim (.error (.unknownName s)) fun set => .ok (w.viewOf set) := by
  unfold view
  rw [memberSet_eq]
  cases w.sets.get? s <;> rfl

theorem view_of_get? {w : Workspace V} {s : String} {set : MemberSet}
    (h : w.sets.get? s = some set) : w.view s = .ok (w.viewOf set) := by
  rw [view_eq, h, Option.elim_some]

/-- What is to be seen under a name is a set with its vocabulary as it is now. -/
theorem view_eq_ok {w : Workspace V} {a : String} {s : SetView V} (h : w.view a = .ok s) :
    ∃ set, w.sets.get? a = some set ∧ s = w.viewOf set := by
  rw [view_eq] at h
  cases hset : w.sets.get? a with
  | none =>
    rw [hset] at h
    cases h
  | some set =>
    rw [hset] at h
    cases h
    exact ⟨set, rfl, rfl⟩

theorem workingSet_eq (w : Workspace V) (s : String) :
    w.workingSet s = match w.sets.get? s with
      | some (.working set) => .ok set
      | some (.frozen _) => .error (.frozenSet s)
      | none => .error (.unknownName s) := by
  unfold workingSet
  rw [memberSet_eq]
  rcases w.sets.get? s with _ | (_ | _) <;> rfl

theorem get?_of_memberSet {w : Workspace V} {s : String} {set : MemberSet}
    (h : w.memberSet s = .ok set) : w.sets.get? s = some set :=
  OrderedMap.get?_of_named h

theorem get?_of_workingSet {w : Workspace V} {s : String} {set : WorkingSet}
    (h : w.workingSet s = .ok set) : w.sets.get? s = some (.working set) := by
  rw [workingSet_eq] at h
  rcases hset : w.sets.get? s with _ | (_ | _) <;> rw [hset] at h <;> cases h
  rfl

/-! ### The vocabularies of a changed workspace -/

theorem vocabularyAt_setVocabulary {w : Workspace V} {u : Vocabulary V}
    (h : u.id < w.vocabularies.size) (k : Nat) :
    (w.setVocabulary u).vocabularyAt k = if k = u.id then u else w.vocabularyAt k := by
  simp only [vocabularyAt, setVocabulary, Array.getD_eq_getD_getElem?,
    Array.getElem?_setIfInBounds]
  by_cases hk : k = u.id
  · subst hk
    simp [h]
  · simp [hk, Ne.symm hk]

/-- A new vocabulary is what was to be found under its number before. -/
theorem vocabularyAt_addVocabulary (w : Workspace V) (u : String) (k : Nat) :
    (w.addVocabulary u).vocabularyAt k = w.vocabularyAt k := by
  simp only [vocabularyAt, addVocabulary, Array.getD_eq_getD_getElem?, Array.getElem?_push]
  by_cases hk : k = w.vocabularies.size
  · subst hk
    simp
  · simp [hk]

/-! ### Soundness -/

/-- What every run keeps. -/
structure Sound (digest : WordDigest) (w : Workspace V) : Prop where
  numbered : ∀ k, (w.vocabularyAt k).id = k
  consistent : ∀ k, (w.vocabularyAt k).current.Consistent
  named : ∀ u k, w.named.get? u = some k → k < w.vocabularies.size
  known : ∀ s set, w.sets.get? s = some set → set.vocabulary < w.vocabularies.size
  grounded : ∀ s set, w.sets.get? s = some set →
    set.Grounded digest (w.vocabularyAt set.vocabulary)

theorem sound_empty (digest : WordDigest) : Sound digest ({} : Workspace V) where
  numbered k := by simp [vocabularyAt]
  consistent k := by simpa [vocabularyAt] using Edition.consistent_empty
  named u k h := by simp at h
  known s set h := by simp at h
  grounded s set h := by simp at h

/-- All that a command can do, with the calls that it makes on each vocabulary. -/
inductive Effect (digest : WordDigest) (w : Workspace V) :
    (Nat → List (Registration V)) → Workspace V → Prop
  | unchanged : Effect digest w (fun _ => []) w
  | newVocabulary (u : String) : Effect digest w (fun _ => []) (w.addVocabulary u)
  | pinned (p : String) (pin : Pin V) (k : Nat) (h : pin.edition = (w.vocabularyAt k).current) :
    Effect digest w (fun _ => []) (w.setPin p pin)
  | pinCopied (p q : String) (pin : Pin V) (h : w.pins.get? q = some pin) :
    Effect digest w (fun _ => []) (w.setPin p pin.copy)
  | setChanged (s : String) (set : MemberSet) (known : set.vocabulary < w.vocabularies.size)
    (grounded : set.Grounded digest (w.vocabularyAt set.vocabulary)) :
    Effect digest w (fun _ => []) (w.setSet s set)
  | grown (k : Nat) (known : k < w.vocabularies.size) (rs : List (Registration V)) :
    Effect digest w (callsOn (some k) rs) (w.setVocabulary ((w.vocabularyAt k).afterAll rs))
  | setGrown (s : String) (set : WorkingSet) (h : w.sets.get? s = some (.working set))
    (vs : List V) (reply : Bool → Reply V) :
    Effect digest w (callsOn (some set.vocabulary) (vs.map .single))
      (w.addTo s set vs reply).workspace

omit [DecidableEq V] [Hashable V] in
@[simp] theorem callsOn_none (rs : List (Registration V)) : callsOn none rs = fun _ => [] := rfl

omit [DecidableEq V] [Hashable V] in
@[simp] theorem callsOn_nil (k : Option Nat) :
    callsOn k ([] : List (Registration V)) = fun _ => [] := by
  funext id
  unfold callsOn
  split <;> rfl

variable {digest : WordDigest} {w : Workspace V}

theorem step_of_ok {c : Command V} {o : Outcome V} (h : w.perform digest c = .ok o) :
    w.step digest c = o.workspace := by
  rw [step, h]

theorem step_of_error {c : Command V} {e : Misuse} (h : w.perform digest c = .error e) :
    w.step digest c = w := by
  rw [step, h]

/-- Commands that begin with a lookup, and are misused if there is nothing to be found. -/
theorem effect_lookup {c : Command V} {A B : Type} {o : Option A} {x : Except Misuse B} {e : Misuse}
    {g : A → B} (hx : x = o.elim (.error e) fun a => .ok (g a)) (f : B → Outcome V)
    (hperform : w.perform digest c = do return f (← x))
    (hsome : ∀ a, o = some a → Effect digest w (w.registrations c) (f (g a)).workspace)
    (hnone : o = none → w.registrations c = fun _ => []) :
    Effect digest w (w.registrations c) (w.step digest c) := by
  rw [hx] at hperform
  cases o with
  | none =>
    rw [hnone rfl, step_of_error hperform]
    exact .unchanged
  | some a =>
    rw [step_of_ok hperform]
    exact hsome a rfl

/-- Commands that register in a named vocabulary. -/
theorem effect_growth (hs : w.Sound digest) {c : Command V} {u : String}
    {rs : List (Registration V)} (f : Vocabulary V → Vocabulary.Grown V)
    (reply : Vocabulary V → Reply V)
    (hperform : w.perform digest c = do
      let x ← w.vocabulary u
      return w.afterGrowth (f x) (reply x))
    (hcalls : w.registrations c = callsOn (w.named.get? u) rs)
    (hf : ∀ x, (f x).vocabulary = x.afterAll rs) :
    Effect digest w (w.registrations c) (w.step digest c) := by
  refine effect_lookup (w.vocabulary_eq u) _ hperform (fun k hk => ?_) fun hnone => ?_
  · rw [hcalls, hk, afterGrowth, hf]
    exact .grown k (hs.named u k hk) rs
  · rw [hcalls, hnone]
    rfl

/-- Commands that ask for a working set. -/
theorem effect_working {c : Command V} {s : String} (f : WorkingSet → Outcome V)
    (hperform : w.perform digest c = do return f (← w.workingSet s))
    (hset : ∀ set, w.sets.get? s = some (.working set) →
      Effect digest w (w.registrations c) (f set).workspace)
    (hnone : w.growing? s = none → w.registrations c = fun _ => []) :
    Effect digest w (w.registrations c) (w.step digest c) := by
  rw [workingSet_eq] at hperform
  unfold growing? at hnone
  rcases h : w.sets.get? s with _ | set | set
  · rw [h] at hperform hnone
    rw [hnone rfl, step_of_error hperform]
    exact .unchanged
  · rw [h] at hperform
    rw [step_of_ok hperform]
    exact hset set h
  · rw [h] at hperform hnone
    rw [hnone rfl, step_of_error hperform]
    exact .unchanged

/-- Commands that add values to a working set. -/
theorem effect_addition {c : Command V} {s : String} {vs : List V} (reply : Bool → Reply V)
    (hperform : w.perform digest c = do return w.addTo s (← w.workingSet s) vs reply)
    (hcalls : w.registrations c = callsOn (w.growing? s) (vs.map .single)) :
    Effect digest w (w.registrations c) (w.step digest c) := by
  refine effect_working _ hperform (fun set hset => ?_) fun hnone => ?_
  · rw [hcalls, growing?, hset]
    exact .setGrown s set hset vs reply
  · rw [hcalls, hnone]
    rfl

/-- Commands that change a working set and leave its vocabulary. -/
theorem effect_change (hs : w.Sound digest) {c : Command V} {s : String}
    (f : WorkingSet → Outcome V)
    (hperform : w.perform digest c = do return f (← w.workingSet s))
    (hcalls : w.registrations c = fun _ => [])
    (hf : ∀ set, (MemberSet.working set).Grounded digest (w.vocabularyAt set.vocabulary) →
      ∃ t new, (f set).workspace = w.setSet t new ∧ new.vocabulary = set.vocabulary ∧
        new.Grounded digest (w.vocabularyAt set.vocabulary)) :
    Effect digest w (w.registrations c) (w.step digest c) := by
  refine effect_working f hperform (fun set hset => ?_) fun _ => hcalls
  obtain ⟨t, new, hnew, hvoc, hground⟩ := hf set (hs.grounded s _ hset)
  rw [hcalls, hnew]
  exact .setChanged t new (hvoc ▸ hs.known s _ hset) (hvoc ▸ hground)

theorem insertInto_eq (w : Workspace V) (s : String) (v : V) (set : WorkingSet) :
    w.insertInto s v set = w.addTo s set [v] .flag := by
  rw [insertInto, addTo, WorkingSet.insertAll_singleton]

theorem eraseFrom_changed (s : String) (v : V) (set : WorkingSet)
    (h : (MemberSet.working set).Grounded digest (w.vocabularyAt set.vocabulary)) :
    ∃ t new, (w.eraseFrom s v set).workspace = w.setSet t new ∧ new.vocabulary = set.vocabulary ∧
      new.Grounded digest (w.vocabularyAt set.vocabulary) :=
  ⟨s, _, rfl, WorkingSet.vocabulary_erase v, WorkingSet.grounded_erase h v⟩

theorem clearOut_changed (s : String) (set : WorkingSet) :
    ∃ t new, (w.clearOut s set).workspace = w.setSet t new ∧ new.vocabulary = set.vocabulary ∧
      new.Grounded digest (w.vocabularyAt set.vocabulary) :=
  ⟨s, _, rfl, rfl, WorkingSet.grounded_clear⟩

/-- What frozen sets refuse, working sets do as they do it elsewhere. -/
theorem attempt_eq (s : String) (operation : Operation) (f : WorkingSet → Outcome V) :
    w.attempt s operation f = match w.sets.get? s with
      | some (.working set) => .ok (f set)
      | some (.frozen _) => .ok (w.unchanged (.refused (.unsupported .frozenSet operation)))
      | none => .error (.unknownName s) := by
  unfold attempt
  rw [memberSet_eq]
  rcases w.sets.get? s with _ | set | set <;> rfl

/-- What comes of such an operation is what a working set makes of it, or a refusal. -/
theorem attempt_cases {s : String} {operation : Operation} {f : WorkingSet → Outcome V}
    {o : Outcome V} (h : w.attempt s operation f = .ok o) :
    (∃ set, w.sets.get? s = some (.working set) ∧ o = f set) ∨
      ∃ fault, o = w.unchanged (.refused fault) := by
  rw [attempt_eq] at h
  split at h
  next set hset =>
    cases h
    exact .inl ⟨set, hset, rfl⟩
  next =>
    cases h
    exact .inr ⟨_, rfl⟩
  next => cases h

theorem refuse_eq (s : String) (operation : Operation) :
    w.refuse s operation = match w.sets.get? s with
      | some set => .ok (w.unchanged (.refused (.unsupported set.container operation)))
      | none => .error (.unknownName s) := by
  unfold refuse
  rw [memberSet_eq]
  cases w.sets.get? s <;> rfl

/-- An operation that frozen sets refuse has the effect of the one that asks for a working set. -/
theorem step_attempt {c d : Command V} {s : String} {operation : Operation}
    {f : WorkingSet → Outcome V} (hc : w.perform digest c = w.attempt s operation f)
    (hd : w.perform digest d = do return f (← w.workingSet s)) :
    w.step digest c = w.step digest d := by
  rw [attempt_eq] at hc
  rw [workingSet_eq] at hd
  rcases h : w.sets.get? s with _ | set | set
  · rw [h] at hc hd
    rw [step_of_error hc, step_of_error hd]
  · rw [h] at hc hd
    rw [step_of_ok hc, step_of_ok hd]
  · rw [h] at hc hd
    rw [step_of_ok hc, step_of_error hd]
    rfl

theorem step_refuse {c : Command V} {s : String} {operation : Operation}
    (hc : w.perform digest c = w.refuse s operation) : w.step digest c = w := by
  rw [refuse_eq] at hc
  cases h : w.sets.get? s with
  | none =>
    rw [h] at hc
    exact step_of_error hc
  | some set =>
    rw [h] at hc
    exact step_of_ok hc

/-- Every command has one of the effects, and makes the calls that it is said to make. -/
theorem step_effect (hs : w.Sound digest) (c : Command V) :
    Effect digest w (w.registrations c) (w.step digest c) := by
  have hinsert (s : String) (v : V) :
      Effect digest w (w.registrations (.insert s v)) (w.step digest (.insert s v)) := by
    have hperform : w.perform digest (.insert s v) =
        (do return w.addTo s (← w.workingSet s) [v] .flag) := by
      simp only [perform, insertInto_eq]
    exact effect_addition .flag hperform rfl
  have hinsertAll (s : String) (vs : List V) :
      Effect digest w (w.registrations (.insertAll s vs)) (w.step digest (.insertAll s vs)) :=
    effect_addition .flag rfl rfl
  have herase (s : String) (v : V) :
      Effect digest w (w.registrations (.erase s v)) (w.step digest (.erase s v)) :=
    effect_change hs (w.eraseFrom s v) rfl rfl (eraseFrom_changed s v)
  have hclear (s : String) :
      Effect digest w (w.registrations (.clear s)) (w.step digest (.clear s)) :=
    effect_change hs (w.clearOut s) rfl rfl fun set _ => clearOut_changed s set
  cases c with
  | newVocabulary u => exact .newVocabulary u
  | register u v =>
    exact effect_growth hs (fun x => (x.register v).toGrown) _ rfl rfl fun x => rfl
  | registerRaced u v others =>
    exact effect_growth hs (fun x => (x.registerRaced v others).toGrown) _ rfl rfl
      fun x => x.registerRaced_vocabulary v others
  | registerAll u vs => exact effect_growth hs (·.registerAll vs) _ rfl rfl fun x => rfl
  | registerProduced u pairs =>
    exact effect_growth hs (·.registerProduced pairs) _ rfl rfl
      fun x => x.registerProduced_vocabulary pairs
  | pin p u =>
    exact effect_lookup (w.vocabulary_eq u) _ rfl (fun k _ => .pinned p _ k rfl) fun _ => rfl
  | copyPin p q =>
    exact effect_lookup (w.pinned_eq q) _ rfl (fun pin hq => .pinCopied p q pin hq) fun _ => rfl
  | newSet s u =>
    refine effect_lookup (w.vocabulary_eq u) _ rfl (fun k hu => ?_) fun _ => rfl
    have hid : (MemberSet.working (.emptyOver (w.vocabularyAt k))).vocabulary = k := hs.numbered k
    exact .setChanged s _ (hid.symm ▸ hs.named u k hu) (hid.symm ▸ WorkingSet.grounded_emptyOver)
  | copySet s t =>
    exact effect_lookup (w.memberSet_eq t) _ rfl
      (fun set ht => .setChanged s set (hs.known t set ht) (hs.grounded t set ht)) fun _ => rfl
  | freeze f s =>
    exact effect_change hs _ rfl rfl fun set hset =>
      ⟨f, .frozen (set.freeze digest), rfl, rfl, WorkingSet.grounded_freeze hset⟩
  | insert s v => exact hinsert s v
  | erase s v => exact herase s v
  | insertAll s vs => exact hinsertAll s vs
  | insertMembers s t =>
    have h := w.view_eq t
    cases ht : w.sets.get? t with
    | none =>
      rw [ht, Option.elim_none] at h
      have hcalls : w.registrations (.insertMembers s t) = fun _ => [] := by
        rw [registrations, membersOf, h, List.map_nil, callsOn_nil]
      have herror : ∃ e, w.perform digest (.insertMembers s t) = .error e := by
        rw [perform, h, workingSet_eq]
        rcases w.sets.get? s with _ | set | set <;> exact ⟨_, rfl⟩
      obtain ⟨e, he⟩ := herror
      rw [hcalls, step_of_error he]
      exact .unchanged
    | some set =>
      rw [ht, Option.elim_some] at h
      exact effect_addition .flag (by rw [perform, h, membersOf, h]; rfl) rfl
  | extend s vs => exact effect_addition (fun _ => .done) rfl rfl
  | clear s => exact hclear s
  | tryInsert s v =>
    rw [step_attempt (d := .insert s v) rfl rfl]
    exact hinsert s v
  | tryErase s v =>
    rw [step_attempt (d := .erase s v) rfl rfl]
    exact herase s v
  | tryInsertAll s vs =>
    rw [step_attempt (d := .insertAll s vs) rfl rfl]
    exact hinsertAll s vs
  | tryClear s =>
    rw [step_attempt (d := .clear s) rfl rfl]
    exact hclear s
  | tryRetainAll s vs =>
    rw [step_refuse rfl]
    exact .unchanged
  | tryRemoveAll s vs =>
    rw [step_refuse rfl]
    exact .unchanged
  | walkWhileGrowing s k vs =>
    refine effect_lookup (w.view_eq s) _ rfl (fun set hset => ?_) fun hset => ?_
    · rw [registrations, hset]
      exact .grown set.vocabulary (hs.known s set hset) [.batch vs]
    · rw [registrations, hset]
      rfl

/-! ### What effects keep -/

theorem size_setVocabulary (w : Workspace V) (u : Vocabulary V) :
    (w.setVocabulary u).vocabularies.size = w.vocabularies.size := by
  simp [setVocabulary]

theorem get?_setSet (w : Workspace V) (s t : String) (set : MemberSet) :
    (w.setSet s set).sets.get? t = if s == t then some set else w.sets.get? t :=
  OrderedMap.get?_insert _ _ _ _

/-- Growth of one vocabulary, as every vocabulary sees it. -/
theorem vocabularyAt_grown (hs : w.Sound digest) {k : Nat} (known : k < w.vocabularies.size)
    (rs : List (Registration V)) (id : Nat) :
    (w.setVocabulary ((w.vocabularyAt k).afterAll rs)).vocabularyAt id =
      (w.vocabularyAt id).afterAll (callsOn (some k) rs id) := by
  have hid : ((w.vocabularyAt k).afterAll rs).id = k := by
    rw [Vocabulary.id_afterAll, hs.numbered]
  rw [vocabularyAt_setVocabulary (hid.symm ▸ known), hid, callsOn]
  by_cases hk : id = k
  · subst hk
    rw [if_pos rfl, if_pos rfl]
  · rw [if_neg hk, if_neg fun heq => hk (Option.some.inj heq).symm]
    rfl

theorem Sound.setSet (hs : w.Sound digest) {set : MemberSet} (s : String)
    (known : set.vocabulary < w.vocabularies.size)
    (grounded : set.Grounded digest (w.vocabularyAt set.vocabulary)) :
    (w.setSet s set).Sound digest where
  numbered := hs.numbered
  consistent := hs.consistent
  named := hs.named
  known t new ht := by
    rw [get?_setSet] at ht
    split at ht
    next =>
      cases ht
      exact known
    next => exact hs.known t new ht
  grounded t new ht := by
    rw [get?_setSet] at ht
    split at ht
    next =>
      cases ht
      exact grounded
    next => exact hs.grounded t new ht

theorem Sound.grow (hs : w.Sound digest) {k : Nat} (known : k < w.vocabularies.size)
    (rs : List (Registration V)) :
    (w.setVocabulary ((w.vocabularyAt k).afterAll rs)).Sound digest where
  numbered id := by rw [vocabularyAt_grown hs known, Vocabulary.id_afterAll, hs.numbered]
  consistent id := by
    rw [vocabularyAt_grown hs known]
    exact Vocabulary.consistent_afterAll (hs.consistent id) _
  named u id h := by
    rw [size_setVocabulary]
    exact hs.named u id h
  known s set h := by
    rw [size_setVocabulary]
    exact hs.known s set h
  grounded s set h := by
    rw [vocabularyAt_grown hs known]
    exact (hs.grounded s set h).afterAll _

theorem Sound.addVocabulary (hs : w.Sound digest) (u : String) :
    (w.addVocabulary u).Sound digest where
  numbered k := by rw [vocabularyAt_addVocabulary, hs.numbered]
  consistent k := by
    rw [vocabularyAt_addVocabulary]
    exact hs.consistent k
  named v k h := by
    simp only [Workspace.addVocabulary, OrderedMap.get?_insert, Array.size_push] at h ⊢
    split at h
    next =>
      cases h
      omega
    next => exact Nat.lt_succ_of_lt (hs.named v k h)
  known s set h := by
    simp only [Workspace.addVocabulary, Array.size_push]
    exact Nat.lt_succ_of_lt (hs.known s set h)
  grounded s set h := by
    rw [vocabularyAt_addVocabulary]
    exact hs.grounded s set h

/-- Adding to a set is growth of its vocabulary, and then a change of the set. -/
theorem addTo_workspace (hs : w.Sound digest) {s : String} {set : WorkingSet}
    (hset : w.sets.get? s = some (.working set)) (vs : List V) (reply : Bool → Reply V) :
    (w.addTo s set vs reply).workspace =
      (w.setVocabulary ((w.vocabularyAt set.vocabulary).afterAll (vs.map .single))).setSet s
        (.working (set.insertAll (w.vocabularyAt set.vocabulary) vs).set) := by
  obtain ⟨hvoc, -⟩ :=
    WorkingSet.insertAll_spec (hs.consistent set.vocabulary) (hs.grounded s _ hset) vs
  rw [← hvoc]
  rfl

/-- A set that has been added to is over its old vocabulary, which has grown. -/
theorem vocabularyAt_added (hs : w.Sound digest) {s : String} {set : WorkingSet}
    (hset : w.sets.get? s = some (.working set)) (vs : List V) :
    let r := set.insertAll (w.vocabularyAt set.vocabulary) vs
    (MemberSet.working r.set).vocabulary = set.vocabulary ∧
      (w.setVocabulary ((w.vocabularyAt set.vocabulary).afterAll (vs.map .single))).vocabularyAt
        set.vocabulary = r.vocabulary := by
  intro r
  obtain ⟨hgrown, hsame, -⟩ :=
    WorkingSet.insertAll_spec (hs.consistent set.vocabulary) (hs.grounded s _ hset) vs
  have known : set.vocabulary < w.vocabularies.size := hs.known s _ hset
  refine ⟨hsame, ?_⟩
  rw [vocabularyAt_grown hs known, callsOn, if_pos rfl]
  exact hgrown.symm

theorem Effect.vocabularyAt {calls : Nat → List (Registration V)} {x : Workspace V}
    (h : Effect digest w calls x) (hs : w.Sound digest) (id : Nat) :
    x.vocabularyAt id = (w.vocabularyAt id).afterAll (calls id) := by
  cases h with
  | unchanged => rfl
  | newVocabulary u => exact w.vocabularyAt_addVocabulary u id
  | pinned p pin k hk => rfl
  | pinCopied p q pin hq => rfl
  | setChanged s set known grounded => rfl
  | grown k known rs => exact vocabularyAt_grown hs known rs id
  | setGrown s set hset vs reply =>
    rw [addTo_workspace hs hset]
    exact vocabularyAt_grown hs (hs.known s _ hset) _ id

theorem Effect.sound {calls : Nat → List (Registration V)} {x : Workspace V}
    (h : Effect digest w calls x) (hs : w.Sound digest) : x.Sound digest := by
  cases h with
  | unchanged => exact hs
  | newVocabulary u => exact hs.addVocabulary u
  | pinned p pin k hk => exact ⟨hs.numbered, hs.consistent, hs.named, hs.known, hs.grounded⟩
  | pinCopied p q pin hq => exact ⟨hs.numbered, hs.consistent, hs.named, hs.known, hs.grounded⟩
  | setChanged s set known grounded => exact hs.setSet s known grounded
  | grown k known rs => exact hs.grow known rs
  | setGrown s set hset vs reply =>
    have known : set.vocabulary < w.vocabularies.size := hs.known s _ hset
    obtain ⟨-, -, hground, -⟩ :=
      WorkingSet.insertAll_spec (hs.consistent set.vocabulary) (hs.grounded s _ hset) vs
    obtain ⟨hid, hvoc⟩ := vocabularyAt_added hs hset vs
    rw [addTo_workspace hs hset]
    refine (hs.grow known (vs.map .single)).setSet s ?_ ?_
    · rw [size_setVocabulary, hid]
      exact known
    · rw [hid, hvoc]
      exact hground

theorem Sound.step (hs : w.Sound digest) (c : Command V) : (w.step digest c).Sound digest :=
  (step_effect hs c).sound hs

theorem Sound.run (hs : w.Sound digest) (cs : List (Command V)) :
    (w.run digest cs).Sound digest := by
  induction cs generalizing w with
  | nil => exact hs
  | cons c cs ih => exact ih (hs.step c)

/-- Every set of a sound workspace is to be relied on. -/
theorem Sound.reliable (hw : w.Sound digest) {a : String} {s : SetView V} (h : w.view a = .ok s) :
    s.Reliable digest := by
  obtain ⟨set, hset, rfl⟩ := view_eq_ok h
  exact ⟨hw.consistent set.vocabulary, hw.grounded a set hset⟩

end Workspace

end WorkTracking.MemberSet
