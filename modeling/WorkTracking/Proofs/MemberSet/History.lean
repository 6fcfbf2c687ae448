import WorkTracking.Proofs.MemberSet.Run

/-!
The history of each vocabulary in a run: the calls made on it, in order, whichever command made
them. A vocabulary holds the distinct values of its history in the order of first registration;
every edition it published on the way is a first part of the later ones, and so an ordinal that was
once given out stays the place of its value.
-/
namespace WorkTracking.MemberSet

variable {V : Type} [DecidableEq V] [Hashable V]

/-- The vocabulary and the value whose ordinal a command asks for. -/
def Command.asked? : Command V → Option (String × V)
  | .register u v | .registerRaced u v _ => some (u, v)
  | _ => none

/-- The set that a command makes or is called on to change. -/
def Command.target? : Command V → Option String
  | .newSet s _ | .copySet s _ | .freeze s _ | .insert s _ | .erase s _ | .insertAll s _
  | .insertMembers s _ | .extend s _ | .clear s | .tryInsert s _ | .tryErase s _
  | .tryInsertAll s _ | .tryClear s | .tryRetainAll s _ | .tryRemoveAll s _ => some s
  | .newVocabulary _ | .register _ _ | .registerRaced _ _ _ | .registerAll _ _
  | .registerProduced _ _ | .pin _ _ | .copyPin _ _ | .walkWhileGrowing _ _ _ => none

namespace Workspace

/-- The calls made on the vocabulary number `id` in the course of commands. -/
def history (digest : WordDigest) (id : Nat) (w : Workspace V) :
    List (Command V) → List (Registration V)
  | [] => []
  | c :: cs => w.registrations c id ++ (w.step digest c).history digest id cs

variable {digest : WordDigest} {w : Workspace V}

theorem history_append (id : Nat) (cs ds : List (Command V)) :
    w.history digest id (cs ++ ds) =
      w.history digest id cs ++ (w.run digest cs).history digest id ds := by
  induction cs generalizing w with
  | nil => rfl
  | cons c cs ih => rw [List.cons_append, history, history, ih, List.append_assoc, run_cons]

theorem history_snoc (id : Nat) (cs : List (Command V)) (c : Command V) :
    w.history digest id (cs ++ [c]) =
      w.history digest id cs ++ (w.run digest cs).registrations c id := by
  rw [history_append, history, history, List.append_nil]

theorem run_snoc (cs : List (Command V)) (c : Command V) :
    w.run digest (cs ++ [c]) = (w.run digest cs).step digest c :=
  run_append digest w cs [c]

theorem vocabularyAt_step (hs : w.Sound digest) (c : Command V) (id : Nat) :
    (w.step digest c).vocabularyAt id = (w.vocabularyAt id).afterAll (w.registrations c id) :=
  (step_effect hs c).vocabularyAt hs id

/-- A run takes a vocabulary through the calls of its history, and nothing else. -/
theorem vocabularyAt_run (hs : w.Sound digest) (cs : List (Command V)) (id : Nat) :
    (w.run digest cs).vocabularyAt id = (w.vocabularyAt id).afterAll (w.history digest id cs) := by
  induction cs generalizing w with
  | nil => rfl
  | cons c cs ih =>
    rw [run_cons, ih (hs.step c), vocabularyAt_step hs, history, Vocabulary.afterAll_append]

theorem ordinal?_run (hs : w.Sound digest) (cs : List (Command V)) {id : Nat} {v : V} {i : Nat}
    (h : (w.vocabularyAt id).ordinal? v = some i) :
    ((w.run digest cs).vocabularyAt id).ordinal? v = some i := by
  rw [vocabularyAt_run hs]
  exact Vocabulary.ordinal?_afterAll_of_known _ h

theorem value?_run (hs : w.Sound digest) (cs : List (Command V)) {id : Nat} {v : V} {i : Nat}
    (h : (w.vocabularyAt id).ordinal? v = some i) :
    ((w.run digest cs).vocabularyAt id).value? i = some v :=
  ((hs.run cs).consistent id v i).mp (ordinal?_run hs cs h)

/-! ### Ordinals given out -/

/-- The ordinal in a reply is that of the value in the vocabulary afterwards. -/
theorem ordinal?_of_reply {c : Command V} {u : String} {v : V} {k i : Nat} {o : Outcome V}
    (hs : w.Sound digest) (hc : c.asked? = some (u, v)) (hk : w.named.get? u = some k)
    (ho : w.perform digest c = .ok o) (hi : o.reply = .number i) :
    ((w.step digest c).vocabularyAt k).ordinal? v = some i := by
  have hvoc := w.vocabulary_eq u
  rw [hk] at hvoc
  rw [vocabularyAt_step hs]
  cases c with
  | register u' v' =>
    obtain ⟨rfl, rfl⟩ : u' = u ∧ v' = v := by simpa [Command.asked?] using hc
    rw [perform, hvoc] at ho
    cases ho
    cases hi
    rw [registrations, hk, callsOn, if_pos rfl]
    exact (w.vocabularyAt k).ordinal?_register v'
  | registerRaced u' v' others =>
    obtain ⟨rfl, rfl⟩ : u' = u ∧ v' = v := by simpa [Command.asked?] using hc
    rw [perform, hvoc] at ho
    cases ho
    cases hi
    rw [registrations, hk, callsOn, if_pos rfl, ← Vocabulary.registerRaced_vocabulary,
      Vocabulary.registerRaced_eq]
    exact Vocabulary.ordinal?_register _ v'
  | _ => simp [Command.asked?] at hc

/-! ### Pins -/

theorem vocabularyAt_empty (id : Nat) : ({} : Workspace V).vocabularyAt id = { id } := by
  simp [vocabularyAt]

/-- After a command a pin holds what some pin held before, or what a vocabulary published last. -/
theorem Effect.pin_edition {calls : Nat → List (Registration V)} {x : Workspace V}
    (h : Effect digest w calls x) {p : String} {pin : Pin V} (hp : x.pins.get? p = some pin) :
    (∃ q old, w.pins.get? q = some old ∧ pin.edition = old.edition) ∨
      ∃ k, pin.edition = (w.vocabularyAt k).current := by
  have kept (ho : w.pins.get? p = some pin) :
      ∃ q old, w.pins.get? q = some old ∧ pin.edition = old.edition := ⟨p, pin, ho, rfl⟩
  cases h with
  | unchanged => exact .inl (kept hp)
  | newVocabulary u => exact .inl (kept hp)
  | setChanged s set known grounded => exact .inl (kept hp)
  | grown k known rs => exact .inl (kept hp)
  | setGrown s set hset vs reply => exact .inl (kept hp)
  | pinned q new k hk =>
    rw [setPin, OrderedMap.get?_insert] at hp
    split at hp
    next =>
      cases hp
      exact .inr ⟨k, hk⟩
    next => exact .inl (kept hp)
  | pinCopied q r old hold =>
    rw [setPin, OrderedMap.get?_insert] at hp
    split at hp
    next =>
      cases hp
      exact .inl ⟨r, old, hold, rfl⟩
    next => exact .inl (kept hp)

/-- What is pinned, or copied from a pin, was published by some vocabulary. -/
theorem pin_published (cs : List (Command V)) {p : String} {pin : Pin V}
    (h : (({} : Workspace V).run digest cs).pins.get? p = some pin) :
    ∃ k, pin.edition ∈
      ({ id := k } : Vocabulary V).published (({} : Workspace V).history digest k cs) := by
  induction cs using List.reverseRecOn generalizing p pin with
  | nil => simp [run] at h
  | append_singleton cs c ih =>
    have hs := (sound_empty (V := V) digest).run cs
    have later {k : Nat} {e : Edition V} (he : e ∈
        ({ id := k } : Vocabulary V).published (({} : Workspace V).history digest k cs)) :
        e ∈ ({ id := k } : Vocabulary V).published
          (({} : Workspace V).history digest k (cs ++ [c])) := by
      rw [history_snoc]
      exact Vocabulary.mem_published_append he _
    rw [run_snoc] at h
    rcases (step_effect hs c).pin_edition h with ⟨q, old, hq, hpin⟩ | ⟨k, hpin⟩
    · obtain ⟨k, hk⟩ := ih hq
      exact ⟨k, hpin ▸ later hk⟩
    · refine ⟨k, later ?_⟩
      rw [hpin, vocabularyAt_run (sound_empty digest), vocabularyAt_empty]
      exact Vocabulary.current_mem_published _ _

/-- A frozen set registers nothing, whatever it is asked for. -/
theorem registrations_of_frozen {c : Command V} {s : String} {set : FrozenSet}
    (hc : c.target? = some s) (hset : w.sets.get? s = some (.frozen set)) (id : Nat) :
    w.registrations c id = [] := by
  cases c with
  | insert t v | tryInsert t v | insertAll t vs | tryInsertAll t vs | extend t vs
  | insertMembers t r =>
    obtain rfl : t = s := by simpa [Command.target?] using hc
    simp [registrations, growing?, hset]
  | walkWhileGrowing t k vs => simp [Command.target?] at hc
  | register u v | registerRaced u v others | registerAll u vs | registerProduced u pairs =>
    simp [Command.target?] at hc
  | _ => rfl

/-! ### Which set goes by which name -/

/-- All that a command can do to the sets and their names. -/
inductive SetsEffect (digest : WordDigest) (w : Workspace V) :
    Command V → OrderedMap String MemberSet → Prop
  | kept (c : Command V) : SetsEffect digest w c w.sets
  | made (s u : String) (x : Vocabulary V) :
    SetsEffect digest w (.newSet s u) (w.sets.insert s (.working (.emptyOver x)))
  | copied (s t : String) (set : MemberSet) (h : w.sets.get? t = some set) :
    SetsEffect digest w (.copySet s t) (w.sets.insert s set)
  | frozen (f s : String) (set : WorkingSet) (h : w.sets.get? s = some (.working set)) :
    SetsEffect digest w (.freeze f s) (w.sets.insert f (.frozen (set.freeze digest)))
  | changed (c : Command V) (s : String) (target : c.target? = some s) (old new : WorkingSet)
    (h : w.sets.get? s = some (.working old)) :
    SetsEffect digest w c (w.sets.insert s (.working new))

theorem sets_of_ok {c : Command V} {o : Outcome V} (ho : w.perform digest c = .ok o) :
    SetsEffect digest w c o.workspace.sets := by
  have hattempt {s : String} {operation : Operation} {f : WorkingSet → Outcome V}
      (hc : c.target? = some s)
      (hf : ∀ set, ∃ new, (f set).workspace.sets = w.sets.insert s (.working new))
      (hok : w.attempt s operation f = .ok o) : SetsEffect digest w c o.workspace.sets := by
    rcases attempt_cases hok with ⟨set, hset, rfl⟩ | ⟨fault, rfl⟩
    · obtain ⟨new, hnew⟩ := hf set
      rw [hnew]
      exact .changed c s hc set new hset
    · exact .kept c
  cases c with
  | newVocabulary u =>
    cases ho
    exact .kept _
  | register u v | registerRaced u v others | registerAll u vs | registerProduced u pairs
  | pin p u | copyPin p q | walkWhileGrowing t k vs =>
    obtain ⟨_, -, ho⟩ := exists_of_bind_eq_ok ho
    cases ho
    exact .kept _
  | newSet s u =>
    obtain ⟨x, -, ho⟩ := exists_of_bind_eq_ok ho
    cases ho
    exact .made s u x
  | copySet s t =>
    obtain ⟨set, hset, ho⟩ := exists_of_bind_eq_ok ho
    cases ho
    exact .copied s t set (get?_of_memberSet hset)
  | freeze f s =>
    obtain ⟨set, hset, ho⟩ := exists_of_bind_eq_ok ho
    cases ho
    exact .frozen f s set (get?_of_workingSet hset)
  | insert s v | erase s v | insertAll s vs | extend s vs | clear s =>
    obtain ⟨set, hset, ho⟩ := exists_of_bind_eq_ok ho
    cases ho
    exact .changed _ s rfl set _ (get?_of_workingSet hset)
  | insertMembers s t =>
    obtain ⟨set, hset, ho⟩ := exists_of_bind_eq_ok ho
    obtain ⟨_, -, ho⟩ := exists_of_bind_eq_ok ho
    cases ho
    exact .changed _ s rfl set _ (get?_of_workingSet hset)
  | tryInsert s v | tryErase s v | tryInsertAll s vs | tryClear s =>
    exact hattempt rfl (fun set => ⟨_, rfl⟩) ho
  | tryRetainAll s vs | tryRemoveAll s vs =>
    rw [perform, refuse_eq] at ho
    split at ho
    next =>
      cases ho
      exact .kept _
    next => cases ho

theorem step_sets (w : Workspace V) (c : Command V) :
    SetsEffect digest w c (w.step digest c).sets := by
  cases ho : w.perform digest c with
  | error e =>
    rw [step_of_error ho]
    exact .kept c
  | ok o =>
    rw [step_of_ok ho]
    exact sets_of_ok ho

/-- A command changes what goes by the name that it is called on, or no set. -/
theorem get?_sets_step_of_ne {c : Command V} {s : String} (h : c.target? ≠ some s) :
    (w.step digest c).sets.get? s = w.sets.get? s := by
  have hother {t : String} (ht : c.target? = some t) (set : MemberSet) :
      (w.sets.insert t set).get? s = w.sets.get? s := by
    have hne : t ≠ s := by
      rintro rfl
      exact h ht
    simp [OrderedMap.get?_insert, hne]
  generalize hx : (w.step digest c).sets = x
  have hstep : SetsEffect digest w c x := hx ▸ w.step_sets c
  cases hstep with
  | kept => rfl
  | made t u x => exact hother rfl _
  | copied t r set _ => exact hother rfl _
  | frozen f r set _ => exact hother rfl _
  | changed _ t target old new _ => exact hother target _

/-! ### Values in the order of first registration -/

/-- The copy of a pin keeps the edition of that pin. -/
theorem get?_pins_copyPin {q : String} {pin : Pin V} (h : w.pins.get? q = some pin) (p : String) :
    (w.step digest (.copyPin p q)).pins.get? p = some pin.copy := by
  have hok : w.perform digest (.copyPin p q) =
      .ok { workspace := w.setPin p pin.copy, reply := .done } := by
    rw [perform, pinned_eq, h]
    rfl
  rw [step_of_ok hok, setPin, OrderedMap.get?_insert, if_pos BEq.rfl]

/-- What the vocabulary number `id` of the workspace `w` lists after the commands `cs`, and what its
editions do, if its calls were `calls id`. -/
structure ListsRegistrations (digest : WordDigest) (calls : Nat → List (Registration V))
    (w : Workspace V) (id : Nat) : Prop where
  listed : (w.vocabularyAt id).toList = ((calls id).flatMap Registration.values).eraseDups
  current : (w.vocabularyAt id).current ∈ ({ id } : Vocabulary V).published (calls id)
  pinned : ∀ p pin, w.pins.get? p = some pin →
    ∃ k, pin.edition ∈ ({ id := k } : Vocabulary V).published (calls k)
  copied : ∀ p q pin, w.pins.get? q = some pin →
    ∃ copy, (w.step digest (.copyPin p q)).pins.get? p = some copy ∧ copy.edition = pin.edition
  /-- Lookups and list are inverse, and the ordinals have no gaps. -/
  inverse : ∀ e ∈ ({ id } : Vocabulary V).published (calls id),
    (∀ v i, e.ordinal? v = some i ↔ e.value? i = some v) ∧ e.ordinals.size = e.size ∧
      ∀ i, (∃ v, e.ordinal? v = some i) ↔ i < e.size
  earlier : (({ id } : Vocabulary V).published (calls id)).Pairwise fun d e =>
    d.toList <+: e.toList ∧ ∀ v i, d.ordinal? v = some i → e.value? i = some v
  lasting : ∀ v i, (w.vocabularyAt id).ordinal? v = some i →
    ∀ more, ((w.run digest more).vocabularyAt id).value? i = some v
  replied : ∀ c u v o i, c.asked? = some (u, v) → w.named.get? u = some id →
    w.perform digest c = .ok o → o.reply = .number i →
    ∀ more, ((w.run digest (c :: more)).vocabularyAt id).value? i = some v
  quiet : ∀ c, w.registrations c id = [] →
    (w.step digest c).vocabularyAt id = w.vocabularyAt id
  frozen : ∀ c s set, c.target? = some s → w.sets.get? s = some (.frozen set) →
    (w.step digest c).vocabularyAt id = w.vocabularyAt id

/-- In every run, each vocabulary lists the values handed over to be registered in it, each once
and in the order of first registration. In the current edition and in each one published before,
pinned or copied, the table of ordinals is the inverse of the list; earlier lists are first parts of
later ones; and an ordinal that was replied is the place of its value for ever. -/
theorem vocabulary_lists_first_registrations (digest : WordDigest) (cs : List (Command V))
    (id : Nat) :
    (({} : Workspace V).run digest cs).ListsRegistrations digest
      (fun k => ({} : Workspace V).history digest k cs) id := by
  have hs : (({} : Workspace V).run digest cs).Sound digest := (sound_empty digest).run cs
  have hvoc : (({} : Workspace V).run digest cs).vocabularyAt id =
      ({ id } : Vocabulary V).afterAll (({} : Workspace V).history digest id cs) := by
    rw [← vocabularyAt_empty id]
    exact vocabularyAt_run (sound_empty digest) cs id
  have hempty : ({ id } : Vocabulary V).current.Consistent := Edition.consistent_empty
  have hcons : ∀ e ∈ ({ id } : Vocabulary V).published (({} : Workspace V).history digest id cs),
      e.Consistent := fun e he => Vocabulary.consistent_of_mem_published hempty he
  have hquiet (c : Command V) (hc : (({} : Workspace V).run digest cs).registrations c id = []) :
      ((({} : Workspace V).run digest cs).step digest c).vocabularyAt id =
        (({} : Workspace V).run digest cs).vocabularyAt id := by
    rw [vocabularyAt_step hs, hc, Vocabulary.afterAll_nil]
  constructor
  case listed =>
    rw [Vocabulary.toList, hvoc, Vocabulary.current_afterAll]
    exact hempty.toList_addAll _
  case current =>
    rw [hvoc]
    exact Vocabulary.current_mem_published _ _
  case pinned => exact fun p pin hp => pin_published cs hp
  case copied => exact fun p q pin hq => ⟨pin.copy, get?_pins_copyPin hq p, rfl⟩
  case inverse =>
    exact fun e he => ⟨hcons e he, (hcons e he).size_ordinals, (hcons e he).exists_ordinal_iff⟩
  case earlier =>
    refine (Vocabulary.published_pairwise { id } _).imp_of_mem ?_
    intro d e hd he hp
    exact ⟨hp, fun v i hi => (hcons e he v i).mp ((hcons d hd).ordinal?_mono (hcons e he) hp hi)⟩
  case lasting => exact fun v i hi more => value?_run hs more hi
  case replied =>
    intro c u v o i hc hu ho hi more
    rw [run_cons]
    exact value?_run (hs.step c) more (ordinal?_of_reply hs hc hu ho hi)
  case quiet => exact hquiet
  case frozen => exact fun c s set hc hset => hquiet c (registrations_of_frozen hc hset id)

end Workspace

end WorkTracking.MemberSet
