import WorkTracking.Proofs.MemberSet.History
import WorkTracking.Proofs.Vocabulary.Growth

/-!
What a run reports of growth. A command may make one vocabulary grow, and all that it reports is of
that one. So the notices of the commands that concern a vocabulary replay the size of this
vocabulary from zero, and no command reports anything that registers nothing new.
-/
namespace WorkTracking

/-- Adding values to a set reports what registering them reports, members or not. -/
theorem WorkingSet.insertAll_toGrown {V : Type} [DecidableEq V] [Hashable V] (s : WorkingSet)
    (u : Vocabulary V) (vs : List V) : (s.insertAll u vs).toGrown = u.registerEach vs := by
  induction vs generalizing s u with
  | nil => rfl
  | cons v vs ih =>
    rw [Vocabulary.registerEach, ← ih]
    rfl

namespace MemberSet

open Growth

variable {V : Type} [DecidableEq V] [Hashable V]

/-- What is due from a command that brings `n` values to the vocabulary `x`: one notice for each of
them, but one for all that are registered under one lock. A producer registers values of its own
before the lock is taken. -/
def Command.due (x : Vocabulary V) (n : Nat) : Command V → List Growth
  | .registerAll _ _ | .walkWhileGrowing _ _ _ => summed x.size n
  | .registerProduced _ pairs =>
    let own := (x.registerEach (pairs.map Prod.fst)).vocabulary.size - x.size
    announced x.size own ++ summed (x.size + own) (n - own)
  | _ => announced x.size n

namespace Workspace

/-- The vocabulary that a command may make grow, by number. -/
def concerned? (w : Workspace V) : Command V → Option Nat
  | .register u _ | .registerRaced u _ _ | .registerAll u _ | .registerProduced u _ =>
    w.named.get? u
  | .insert s _ | .tryInsert s _ | .insertAll s _ | .tryInsertAll s _ | .extend s _
  | .insertMembers s _ => w.growing? s
  | .walkWhileGrowing s _ _ => (w.sets.get? s).map MemberSet.vocabulary
  | .newVocabulary _ | .pin _ _ | .copyPin _ _ | .newSet _ _ | .copySet _ _ | .freeze _ _
  | .erase _ _ | .clear _ | .tryErase _ _ | .tryClear _ | .tryRetainAll _ _
  | .tryRemoveAll _ _ => none

/-- What a command reports of growth. -/
def told (digest : WordDigest) (w : Workspace V) (c : Command V) : List Growth :=
  match w.perform digest c with
  | .ok o => o.growth
  | .error _ => []

/-- What is reported of the vocabulary number `id` in the course of commands. -/
def heard (digest : WordDigest) (id : Nat) (w : Workspace V) : List (Command V) → List Growth
  | [] => []
  | c :: cs =>
    (if w.concerned? c = some id then w.told digest c else []) ++
      (w.step digest c).heard digest id cs

variable {digest : WordDigest} {w : Workspace V}

/-! ### One command -/

theorem told_of_ok {c : Command V} {o : Outcome V} (h : w.perform digest c = .ok o) :
    w.told digest c = o.growth := by
  rw [told, h]

theorem told_of_error {c : Command V} {e : Misuse} (h : w.perform digest c = .error e) :
    w.told digest c = [] := by
  rw [told, h]

theorem growth_addTo (s : String) (set : WorkingSet) (vs : List V) (reply : Bool → Reply V) :
    (w.addTo s set vs reply).growth =
      ((w.vocabularyAt set.vocabulary).serveAll (vs.map .single)).growth := by
  have h := set.insertAll_toGrown (w.vocabularyAt set.vocabulary) vs
  rw [Vocabulary.registerEach_eq_serveAll] at h
  exact congrArg Vocabulary.Grown.growth h

/-- Commands that register in a named vocabulary. -/
theorem told_named {c : Command V} {u : String} {k : Nat} {rs : List (Registration V)}
    (f : Vocabulary V → Vocabulary.Grown V) (reply : Vocabulary V → Reply V)
    (hk : w.named.get? u = some k)
    (hperform : w.perform digest c = do
      let x ← w.vocabulary u
      return w.afterGrowth (f x) (reply x))
    (hcalls : w.registrations c = callsOn (w.named.get? u) rs)
    (hf : ∀ x, f x = (x.serveAll rs).toGrown) :
    w.told digest c = ((w.vocabularyAt k).serveAll (w.registrations c k)).growth := by
  rw [vocabulary_eq, hk] at hperform
  rw [told_of_ok hperform, hcalls, callsOn, if_pos hk, afterGrowth, hf]

/-- Commands that add values to a set, which turns out to be a working set. -/
theorem told_addition {c : Command V} {s : String} {k : Nat} (vs : List V)
    (reply : Bool → Reply V) (hk : w.growing? s = some k)
    (hperform : ∀ set, w.sets.get? s = some (.working set) →
      w.perform digest c = .ok (w.addTo s set vs reply))
    (hcalls : w.registrations c = callsOn (w.growing? s) (vs.map .single)) :
    w.told digest c = ((w.vocabularyAt k).serveAll (w.registrations c k)).growth := by
  rw [hcalls, callsOn, if_pos hk]
  unfold growing? at hk
  split at hk
  next set hset =>
    cases hk
    rw [told_of_ok (hperform set hset), growth_addTo]
  next => cases hk

/-- A command reports what its calls report, on the vocabulary that it concerns. -/
theorem told_of_concerned {c : Command V} {k : Nat} (h : w.concerned? c = some k) :
    w.told digest c = ((w.vocabularyAt k).serveAll (w.registrations c k)).growth := by
  have hfound {s : String} {set : WorkingSet} (hset : w.sets.get? s = some (.working set)) :
      w.workingSet s = .ok set := by rw [workingSet_eq, hset]
  cases c with
  | register u v =>
    exact told_named (fun x => (x.register v).toGrown) _ h rfl rfl fun x =>
      (x.serveAll_singleton_toGrown (.single v)).symm
  | registerRaced u v others =>
    refine told_named (fun x => (x.registerRaced v others).toGrown) _ h rfl rfl fun x => ?_
    rw [Vocabulary.registerRaced_toGrown, Vocabulary.registerEach_eq_serveAll]
  | registerAll u vs =>
    exact told_named (·.registerAll vs) _ h rfl rfl fun x =>
      (x.serveAll_singleton_toGrown (.batch vs)).symm
  | registerProduced u pairs =>
    exact told_named (·.registerProduced pairs) _ h rfl rfl fun x =>
      x.registerProduced_eq_serveAll pairs
  | insert s v =>
    refine told_addition [v] .flag h (fun set hset => ?_) rfl
    rw [perform, hfound hset, ← insertInto_eq]
    rfl
  | tryInsert s v =>
    refine told_addition [v] .flag h (fun set hset => ?_) rfl
    rw [perform, attempt_eq, hset, ← insertInto_eq]
  | insertAll s vs =>
    refine told_addition vs .flag h (fun set hset => ?_) rfl
    rw [perform, hfound hset]
    rfl
  | tryInsertAll s vs =>
    refine told_addition vs .flag h (fun set hset => ?_) rfl
    rw [perform, attempt_eq, hset]
  | extend s vs =>
    refine told_addition vs (fun _ => .done) h (fun set hset => ?_) rfl
    rw [perform, hfound hset]
    rfl
  | insertMembers s t =>
    cases hview : w.view t with
    | ok view =>
      refine told_addition view.toList .flag h (fun set hset => ?_) ?_
      · rw [perform, hfound hset, hview]
        rfl
      · rw [registrations, membersOf, hview]
    | error e =>
      -- the set is there, but nothing to be added to it
      obtain ⟨e', he⟩ : ∃ e', w.perform digest (.insertMembers s t) = .error e' := by
        rw [perform, hview]
        cases w.workingSet s <;> exact ⟨_, rfl⟩
      rw [told_of_error he, registrations, membersOf, hview, List.map_nil, callsOn_nil]
      rfl
  | walkWhileGrowing s m vs =>
    obtain ⟨set, hset, rfl⟩ := Option.map_eq_some_iff.mp h
    rw [told, perform, view_of_get? hset, registrations, hset, callsOn, Option.map_some,
      if_pos rfl, Vocabulary.growth_serveAll_singleton]
    rfl
  | _ => cases h

/-- A command that concerns no vocabulary reports nothing. -/
theorem told_of_unconcerned {c : Command V} (h : w.concerned? c = none) :
    w.told digest c = [] := by
  have hquiet (ho : ∀ o, w.perform digest c = .ok o → o.growth = []) : w.told digest c = [] := by
    unfold told
    split
    next o hok => exact ho o hok
    next => rfl
  have hunnamed {u : String} (hu : w.named.get? u = none) (x : Vocabulary V) :
      w.vocabulary u ≠ .ok x := by
    rw [vocabulary_eq, hu]
    nofun
  have hunfit {s : String} (hs : w.growing? s = none) (set : WorkingSet) :
      w.sets.get? s ≠ some (.working set) := by
    intro hset
    rw [growing?, hset] at hs
    cases hs
  have hattempt {s : String} {operation : Operation} {f : WorkingSet → Outcome V} {o : Outcome V}
      (hf : ∀ set, w.sets.get? s = some (.working set) → (f set).growth = [])
      (hok : w.attempt s operation f = .ok o) : o.growth = [] := by
    rcases attempt_cases hok with ⟨set, hset, rfl⟩ | ⟨fault, rfl⟩
    · exact hf set hset
    · rfl
  refine hquiet fun o ho => ?_
  cases c with
  | newVocabulary u =>
    cases ho
    rfl
  | register u v | registerRaced u v others | registerAll u vs | registerProduced u pairs =>
    obtain ⟨x, hx, -⟩ := exists_of_bind_eq_ok ho
    exact absurd hx (hunnamed h x)
  | insert s v | insertAll s vs | extend s vs | insertMembers s t =>
    obtain ⟨set, hset, -⟩ := exists_of_bind_eq_ok ho
    exact absurd (get?_of_workingSet hset) (hunfit h set)
  | tryInsert s v | tryInsertAll s vs =>
    exact hattempt (fun set hset => absurd hset (hunfit h set)) ho
  | tryErase s v | tryClear s => exact hattempt (fun set _ => rfl) ho
  | pin p u | copyPin p q | newSet s u | copySet s t | freeze f s | erase s v | clear s =>
    obtain ⟨_, -, ho⟩ := exists_of_bind_eq_ok ho
    cases ho
    rfl
  | tryRetainAll s vs | tryRemoveAll s vs =>
    obtain ⟨_, -, ho⟩ := exists_of_bind_eq_ok ho
    cases ho
    rfl
  | walkWhileGrowing s m vs =>
    obtain ⟨view, hview, -⟩ := exists_of_bind_eq_ok ho
    obtain ⟨set, hset, -⟩ := view_eq_ok hview
    rw [concerned?, hset] at h
    cases h

theorem registrations_of_unconcerned {c : Command V} {id : Nat} (h : w.concerned? c ≠ some id) :
    w.registrations c id = [] := by
  have hcalls {k : Option Nat} (rs : List (Registration V)) (hk : k ≠ some id) :
      callsOn k rs id = [] := if_neg hk
  cases c <;> first | exact hcalls _ h | rfl

theorem registrations_of_concerned {c : Command V} {k : Nat} {rs : List (Registration V)}
    (h : w.concerned? c = some k) (hcalls : w.registrations c = callsOn (w.concerned? c) rs) :
    w.registrations c k = rs := by
  rw [hcalls, callsOn, if_pos h]

theorem told_eq_due {c : Command V} {k : Nat} (h : w.concerned? c = some k) :
    let x := w.vocabularyAt k
    w.told digest c = c.due x ((x.afterAll (w.registrations c k)).size - x.size) := by
  intro x
  have hsingles (vs : List V) (hcalls : w.registrations c = callsOn (w.concerned? c)
      (vs.map .single)) : (x.serveAll (w.registrations c k)).growth =
        announced x.size ((x.afterAll (w.registrations c k)).size - x.size) := by
    rw [registrations_of_concerned h hcalls]
    exact x.growth_serveAll_singles vs
  have hbatch (vs : List V) (hcalls : w.registrations c = callsOn (w.concerned? c) [.batch vs]) :
      (x.serveAll (w.registrations c k)).growth =
        summed x.size ((x.afterAll (w.registrations c k)).size - x.size) := by
    rw [registrations_of_concerned h hcalls, Vocabulary.growth_serveAll_singleton]
    exact x.growth_batch vs
  rw [told_of_concerned h]
  cases c with
  | register u v | insert s v | tryInsert s v => exact hsingles [v] rfl
  | registerRaced u v others => exact hsingles (others ++ [v]) rfl
  | insertAll s vs | tryInsertAll s vs | extend s vs => exact hsingles vs rfl
  | insertMembers s t => exact hsingles (w.membersOf t) rfl
  | registerAll u vs | walkWhileGrowing s m vs => exact hbatch vs rfl
  | registerProduced u pairs =>
    have hown := x.size_le_afterAll ((pairs.map Prod.fst).map .single)
    rw [registrations_of_concerned h rfl, Command.due, Vocabulary.registerEach_vocabulary,
      Vocabulary.serveAll_append, Vocabulary.growth_serveAll_singles,
      Vocabulary.growth_serveAll_singleton, Vocabulary.growth_batch, Vocabulary.afterAll_append,
      Nat.sub_sub, Nat.add_sub_cancel' hown]
    rfl
  | _ => cases h

/-! ### Runs -/

/-- What is heard of a vocabulary is what its history reports, call by call. -/
theorem heard_eq (hs : w.Sound digest) (cs : List (Command V)) (id : Nat) :
    w.heard digest id cs =
      ((w.vocabularyAt id).serveAll (w.history digest id cs)).growth := by
  induction cs generalizing w with
  | nil => rfl
  | cons c cs ih =>
    rw [heard, history, Vocabulary.serveAll_append, ih (hs.step c), vocabularyAt_step hs]
    congr 1
    split
    next h => exact told_of_concerned h
    next h =>
      rw [registrations_of_unconcerned h]
      rfl

/-- What is heard of the vocabulary number `id` in the commands that lead to the workspace `w`, and
what commands and producers report there. -/
structure NoticesReplay (digest : WordDigest) (w : Workspace V) (id : Nat) (heard : List Growth) :
    Prop where
  replayed : replay 0 heard = some (w.vocabularyAt id).size
  last : heard.getLast?.elim 0 Growth.size = (w.vocabularyAt id).size
  unconcerned : ∀ c, w.concerned? c = none → w.told digest c = []
  /-- A command reports just if it brings in newcomers, and as is due for them. -/
  concerned : ∀ c k, w.concerned? c = some k →
    let x := w.vocabularyAt k
    let later := (w.step digest c).vocabularyAt k
    let fresh := x.newcomers later
    (∀ v, v ∈ fresh ↔ v ∈ later.toList ∧ v ∉ x.toList) ∧ fresh.Nodup ∧
      (w.told digest c ≠ [] ↔ fresh ≠ []) ∧ w.told digest c = c.due x fresh.length
  /-- The notices of the calls that a producer makes come first, and one at most after them. -/
  produced : ∀ last steps,
    let x := w.vocabularyAt id
    let own := steps.flatMap Prod.fst ++ last
    let middle := x.afterAll own
    let produced := x.registerDrawn last steps
    produced.growth = (x.serveAll own).growth ++
      summed middle.size (produced.vocabulary.size - middle.size) ∧
    replay x.size produced.growth = some produced.vocabulary.size
  paired : ∀ pairs, (w.vocabularyAt id).registerProduced pairs =
    (w.vocabularyAt id).registerDrawn [] (Vocabulary.paired pairs)

/-- In every run, what is heard of a vocabulary replays its size: each notice fits the size to which
the earlier ones have led, and the last tells the size there is. A command reports just if it brings
in something new, and then it reports what is due for the newcomers. Whatever calls a producer makes
while it is asked for a batch, their notices come first, and one for the rest follows at most; a
producer that registers one value before each that it hands over is one of these. -/
theorem notices_replay_size (digest : WordDigest) (cs : List (Command V)) (id : Nat) :
    (({} : Workspace V).run digest cs).NoticesReplay digest id
      (({} : Workspace V).heard digest id cs) := by
  have hempty := sound_empty (V := V) digest
  have hs : (({} : Workspace V).run digest cs).Sound digest := hempty.run cs
  have hreplay : replay 0 (({} : Workspace V).heard digest id cs) =
      some ((({} : Workspace V).run digest cs).vocabularyAt id).size := by
    have hcalls := ({ id } : Vocabulary V).replay_serveAll
      (({} : Workspace V).history digest id cs)
    rw [← vocabularyAt_empty id, ← heard_eq hempty, ← vocabularyAt_run hempty] at hcalls
    rw [← hcalls, vocabularyAt_empty]
    rfl
  constructor
  case replayed => exact hreplay
  case last => exact getLast?_of_replay hreplay
  case unconcerned => exact fun c => told_of_unconcerned
  case concerned =>
    intro c k hc x later fresh
    have hlater : later = x.afterAll
        ((({} : Workspace V).run digest cs).registrations c k) := vocabularyAt_step hs c k
    have hfresh : fresh = x.newcomers later := rfl
    have hcount : fresh.length = later.size - x.size := x.length_newcomers later
    refine ⟨fun v => ?_, ?_, ?_, ?_⟩
    · rw [hfresh, hlater]
      exact Vocabulary.mem_newcomers_iff (hs.consistent k) _
    · rw [hfresh, hlater]
      exact Vocabulary.nodup_newcomers (hs.consistent k) _
    · have hgrown := x.replay_serveAll ((({} : Workspace V).run digest cs).registrations c k)
      have hle := x.size_le_afterAll ((({} : Workspace V).run digest cs).registrations c k)
      rw [← told_of_concerned hc] at hgrown
      refine (not_congr (eq_nil_iff_of_replay hgrown)).trans ?_
      rw [← List.length_pos_iff, hcount, hlater]
      omega
    · rw [hcount, hlater]
      exact told_eq_due hc
  case produced =>
    intro last steps x own middle produced
    refine ⟨x.growth_registerDrawn last steps, ?_⟩
    have hproduced : produced = (x.serveAll (own ++ [.batch (steps.map Prod.snd)])).toGrown :=
      x.registerDrawn_eq last steps
    rw [hproduced, Vocabulary.serveAll_vocabulary]
    exact x.replay_serveAll _
  case paired => exact Vocabulary.registerProduced_eq_registerDrawn _

end Workspace

end MemberSet

end WorkTracking
