import RsIpc.SharedMessage.Consumption

/-!
# The counters as numbers

`active_readers` and `data_consumed` are 16 bits wide, and only `add_reader` looks
at the bound of its field.  They are the numbers they stand for exactly as long as
no registration and no release finds its field full.
-/

namespace RsIpc

open Protocol Protocol.Handshake Transition

universe u

/-- A party leaves its guard by a release. -/
theorem Takes.released_of_admitted {msg : SharedMessage} {pc : Pc} {act : Act}
    (takes : Takes msg pc act) (was : pc.phase = .admitted) (now : act.pc.phase ≠ .admitted) :
    ∃ sequence, act.event = some (.released sequence) := by
  cases takes with
  | update site policy run =>
      cases site with
      | release sequence => exact ⟨sequence, rfl⟩
      | _ => cases was
  | dropRead sequence => exact absurd rfl now
  | compute site at_ => rcases at_ with rfl | ⟨packed, rfl⟩ <;> exact absurd was now
  | panic site at_ membership =>
      rcases at_ with rfl | ⟨packed, rfl⟩ <;> rcases membership with rfl | rfl <;> cases was
  | unchanged size at_ same | unchangedTarget count at_ same =>
      rcases at_ with rfl | ⟨packed, rfl⟩ <;> cases was
  | wake site => exact absurd (site.phase_after.trans was) now
  | waitReturns site ticket spins changed | wakeUp site ticket =>
      exact absurd (site.phase_resume.trans was) now
  | spin site ticket spins same | park site ticket same | notify site => exact absurd was now
  | _ => cases was

variable {ι : Type u}

/-- No registration finds `active_readers` full, and no release `data_consumed`. -/
def FindsRoom : StepCondition (State ι) (ι × Choice) :=
  fun source label target =>
    (¬ (source.pc label.1).phase.Reads → (target.pc label.1).phase.Reads →
      source.msg.getReaderState.activeReaders ≠ BitVec.allOnes 16) ∧
    ((source.pc label.1).phase = .admitted → (target.pc label.1).phase ≠ .admitted →
      source.msg.getReaderState.dataConsumed ≠ BitVec.allOnes 16)

variable [Fintype ι]

/-- The guards released since the last publish; a publish counts from its reset of
the counter on. -/
def State.releases (state : State ι) : Nat :=
  if ∃ party, (state.pc party).cleared = true then 0 else (History.consumed state.log).length

/-- The counters are what they stand for. -/
structure State.CountersExact (state : State ι) : Prop where
  registered : state.msg.getReaderState.activeReaders.toNat = state.registrations
  unguarded : state.msg.getReaderState.activeReaders = 0 → ∀ party,
    (state.pc party).phase ≠ .admitted
  released : state.msg.getReaderState.dataConsumed.toNat = state.releases

theorem Tallied.released {state : State ι} (tallied : Tallied state) :
    state.msg.getReaderState.dataConsumed.toNat = state.releases := by
  unfold State.releases
  split
  · rename_i cleared
    obtain ⟨party, clears⟩ := cleared
    rw [tallied.cleared party clears]
    rfl
  · rename_i uncleared
    exact tallied.counted (by simpa using uncleared)

variable [DecidableEq ι] {targetRead consumers : BitVec 16}

theorem registration_le_one (phase : Phase) : registration phase ≤ 1 := by
  unfold registration
  split
  · exact Nat.le_refl 1
  · exact Nat.zero_le 1

/-- Where no registration finds the field full, at most 65535 are outstanding. -/
theorem registrations_le_of_findsRoom {state : State ι}
    (reachable : (system ι targetRead consumers).ReachableVia FindsRoom state) :
    state.registrations ≤ 65535 := by
  refine reachable.invariant (fun state => state.registrations ≤ 65535) ?_ ?_
  · rintro _ ⟨capacity, rfl⟩
    rw [State.registrations_fresh]
    exact Nat.zero_le _
  · rintro source ⟨party, choice⟩ target before few step room
    obtain ⟨act, next, rfl⟩ := State.step_eq_some_iff.mp step
    have change := source.registrations_perform party act
    by_cases full : source.registrations = 65535
    · have word := activeReaders_eq_registrations before.reachable
      rw [full] at word
      have kept : registration act.pc.phase ≤ registration (source.pc party).phase := by
        by_cases reads : (source.pc party).phase.Reads
        · have one := registration_le_one act.pc.phase
          rwa [registration, registration, if_pos reads]
        · have outside : ¬ act.pc.phase.Reads := by
            intro registers
            rw [← State.perform_pc_self source party act] at registers
            exact room.1 reads registers word
          rw [registration, if_neg outside]
          exact Nat.zero_le _
      omega
    · have one := registration_le_one act.pc.phase
      omega

theorem FindsRoom.bounded {state : State ι}
    (reachable : (system ι targetRead consumers).ReachableVia FindsRoom state) :
    (system ι targetRead consumers).ReachableVia Bounded state :=
  reachable.refine fun before step room => registrations_le_of_findsRoom (before.step step room)

omit [Fintype ι] in
theorem FindsRoom.released {source : State ι} {party : ι} {choice : Choice} {act : Act}
    (room : FindsRoom source (party, choice) (source.perform party act))
    (next : next source.msg choice (source.pc party) = some act) {sequence : BitVec 64}
    (event : act.event = some (.released sequence)) :
    source.msg.getReaderState.dataConsumed ≠ BitVec.allOnes 16 := by
  obtain ⟨guard, drops, _⟩ := (next_takes next).guard_of_released event
  refine room.2 (Pc.phase_of_guard guard) fun admitted => ?_
  rw [State.perform_pc_self] at admitted
  obtain ⟨sequence, held⟩ := Pc.guard_of_admitted admitted
  exact Option.some_ne_none _ (held.symm.trans drops)

theorem tallied_of_findsRoom {state : State ι}
    (reachable : (system ι targetRead consumers).ReachableVia FindsRoom state) :
    Tallied state := by
  refine reachable.invariant Tallied ?_ ?_
  · rintro _ ⟨capacity, rfl⟩
    constructor
    · exact fun _ cleared => by cases cleared
    · exact fun _ => by simp [History.consumed]
  · rintro source ⟨party, choice⟩ target before tallied step room
    obtain ⟨act, next, rfl⟩ := State.step_eq_some_iff.mp step
    have excluded := excluded_of_bounded (FindsRoom.bounded before)
    constructor
    · exact tallied.step_cleared excluded next
    · exact tallied.step_counted excluded next fun sequence event => room.released next event

/-- The counters are exact as long as they find room. -/
theorem countersExact_of_findsRoom {state : State ι}
    (reachable : (system ι targetRead consumers).ReachableVia FindsRoom state) :
    state.CountersExact := by
  have few := registrations_le_of_findsRoom reachable
  constructor
  · rw [activeReaders_eq_registrations reachable.reachable, BitVec.toNat_ofNat]
    omega
  · intro none party admitted
    exact drained_of_activeReaders_eq_zero reachable.reachable few none party (.inr admitted)
  · exact (tallied_of_findsRoom reachable).released

/-- A registration that finds the field full leaves it at zero. -/
theorem not_countersExact_of_registers {source : State ι} {party : ι} {choice : Choice} {act : Act}
    (next : next source.msg choice (source.pc party) = some act)
    (outside : ¬ (source.pc party).phase.Reads) (registers : act.pc.phase.Reads)
    (full : source.msg.getReaderState.activeReaders = BitVec.allOnes 16) :
    ¬ (source.perform party act).CountersExact := by
  intro counters
  have words := (next_move next).activeReaders
  have parties := source.registrations_perform party act
  rw [registration, registration, if_neg outside, if_pos registers] at words parties
  have exact_ := counters.registered
  rw [State.perform_msg] at exact_
  rw [full] at words
  have zero : (act.effect.apply source.msg).getReaderState.activeReaders = 0 := by
    simpa using words
  rw [zero] at exact_
  change 0 = _ at exact_
  omega

/-- A release that finds the field full leaves it at zero. -/
theorem not_countersExact_of_releases {source : State ι} {party : ι} {choice : Choice} {act : Act}
    (reachable : (system ι targetRead consumers).ReachableVia FindsRoom source)
    (next : next source.msg choice (source.pc party) = some act)
    (guarded : (source.pc party).phase = .admitted) (releases : act.pc.phase ≠ .admitted)
    (full : source.msg.getReaderState.dataConsumed = BitVec.allOnes 16) :
    ¬ (source.perform party act).CountersExact := by
  intro counters
  obtain ⟨sequence, event⟩ := (next_takes next).released_of_admitted guarded releases
  obtain ⟨guard, _, ends, words⟩ := (next_takes next).guard_of_released event
  have excluded := excluded_of_bounded (FindsRoom.bounded reachable)
  have uncleared : ¬ ∃ other, ((source.perform party act).pc other).cleared = true := by
    rintro ⟨other, cleared⟩
    rw [State.view_perform Pc.cleared WaitSite.cleared_resume] at cleared
    split at cleared
    · exact absurd (ends.symm.trans cleared) (by decide)
    · exact absurd ((not_cleared_of_guard excluded guard other).symm.trans cleared) (by decide)
  have exact_ := counters.released
  rw [State.releases, if_neg uncleared, History.consumed_perform, event, State.perform_msg, words,
    full, List.length_append, List.length_singleton] at exact_
  change 0 = _ at exact_
  omega

/-! ## A satisfied target -/

/-- The backpressure target is met. -/
def State.Satisfied (state : State ι) : Prop :=
  ¬ state.msg.getReaderState.dataConsumed < state.msg.getReaderState.getTargetConsumed

omit [Fintype ι] [DecidableEq ι] in
instance (state : State ι) : Decidable state.Satisfied :=
  inferInstanceAs (Decidable (¬ _))

/-- Consumers and target stay the same, and the step is not the reset with which a
publish begins. -/
def BetweenPublishes : StepCondition (State ι) (ι × Choice) :=
  fun source label target =>
    target.msg.getReaderState.consumers = source.msg.getReaderState.consumers ∧
    target.msg.getReaderState.targetRead = source.msg.getReaderState.targetRead ∧
    ((target.pc label.1).cleared = true → (source.pc label.1).cleared = true)

/-- Up to the exchange nothing changes the counters. -/
theorem Takes.getReaderState_of_cleared {msg : SharedMessage} {pc : Pc} {act : Act}
    (takes : Takes msg pc act) (cleared : pc.cleared = true) :
    (act.effect.apply msg).getReaderState = msg.getReaderState := by
  rw [Effect.getReaderState_apply]
  cases takes with
  | loadPacked size | exchange size | exchangeFails size oldPacked => rfl
  | panic site at_ membership | compute site at_ => rcases at_ with rfl | ⟨packed, rfl⟩ <;> cases cleared
  | unchanged size at_ same | unchangedTarget count at_ same =>
      rcases at_ with rfl | ⟨packed, rfl⟩ <;> cases cleared
  | _ => cases cleared

omit [Fintype ι] in
/-- Between two publishes the counter does not go down. -/
theorem dataConsumed_le_of_step {source : State ι} {party : ι} {choice : Choice} {act : Act}
    (next : next source.msg choice (source.pc party) = some act)
    (room : FindsRoom source (party, choice) (source.perform party act))
    (between : BetweenPublishes source (party, choice) (source.perform party act)) :
    source.msg.getReaderState.dataConsumed ≤
      (act.effect.apply source.msg).getReaderState.dataConsumed := by
  cases (next_takes next).consumption with
  | kept words same unpublished unreleased =>
      rw [words]
      exact BitVec.le_refl _
  | reset event clears words =>
      have cleared := between.2.2 (by rwa [State.perform_pc_self])
      rw [(next_takes next).getReaderState_of_cleared cleared]
      exact BitVec.le_refl _
  | released sequence guard event drops uncleared words =>
      have notFull := room.released next event
      have max : (BitVec.allOnes 16).toNat = 65535 := BitVec.toNat_allOnes
      rw [words]
      bv_omega
  | published message cleared event words =>
      rw [words]
      exact BitVec.le_refl _

omit [Fintype ι] in
theorem satisfied_of_step {source target : State ι} {label : ι × Choice}
    (satisfied : source.Satisfied) (step : source.step label = some target)
    (ok : FindsRoom source label target ∧ BetweenPublishes source label target) :
    target.Satisfied := by
  obtain ⟨party, choice⟩ := label
  obtain ⟨act, next, rfl⟩ := State.step_eq_some_iff.mp step
  obtain ⟨room, between⟩ := ok
  have more := dataConsumed_le_of_step next room between
  have same : (source.perform party act).msg.getReaderState.getTargetConsumed =
      source.msg.getReaderState.getTargetConsumed := by
    rw [ReadersStateCount.getTargetConsumed, between.1, between.2.1]
    rfl
  unfold State.Satisfied at satisfied ⊢
  rw [same]
  intro pending
  rw [BitVec.le_def] at more
  rw [BitVec.lt_def] at satisfied pending
  exact satisfied (Nat.lt_of_le_of_lt more pending)

/-! ## Exactly when -/

/-- Along a run from fresh memory the counters are always what they stand for if and
only if no registration and no release finds its field full.  Such runs keep a
satisfied target satisfied until the next publish. -/
theorem counters_exact_iff_room (capacity : Nat) (labels : List (ι × Choice)) :
    ((system ι targetRead consumers).StatesMeet State.CountersExact
        (State.fresh ι capacity targetRead consumers) labels ↔
      (system ι targetRead consumers).StepsMeet FindsRoom
        (State.fresh ι capacity targetRead consumers) labels) ∧
    ∀ (source : State ι) (labels : List (ι × Choice)), source.Satisfied →
      (system ι targetRead consumers).StepsMeet (fun source label target =>
        FindsRoom source label target ∧ BetweenPublishes source label target) source labels →
      (system ι targetRead consumers).StatesMeet State.Satisfied source labels := by
  constructor
  · constructor
    · refine System.stepsMeet_of_statesMeet ?_
        (.initial (initial_fresh ι capacity targetRead consumers))
      rintro source ⟨party, choice⟩ target reachable step broken counters
      obtain ⟨act, next, rfl⟩ := State.step_eq_some_iff.mp step
      refine broken ⟨?_, ?_⟩
      · intro outside registers full
        rw [State.perform_pc_self] at registers
        exact not_countersExact_of_registers next outside registers full counters
      · intro guarded releases full
        rw [State.perform_pc_self] at releases
        exact not_countersExact_of_releases reachable next guarded releases full counters
    · exact System.statesMeet_of_reachableVia countersExact_of_findsRoom
        (.initial (initial_fresh ι capacity targetRead consumers))
  · intro source labels satisfied meet
    exact System.statesMeet_of_stepsMeet satisfied_of_step satisfied meet

omit [Fintype ι] in
instance (source : State ι) (label : ι × Choice) (target : State ι) :
    Decidable (FindsRoom source label target) :=
  inferInstanceAs (Decidable (_ ∧ _))

omit [Fintype ι] in
instance (source : State ι) (label : ι × Choice) (target : State ι) :
    Decidable (BetweenPublishes source label target) :=
  inferInstanceAs (Decidable (_ ∧ _))

/-- A message is published, read and released. -/
def oneRead : List (Fin 1 × Choice) :=
  calls 0 (.writeSlice [7]) 16 ++ calls 0 (.read 0 true) 5 ++ [(0, .drop)] ++ advances 0 5

theorem counters_exact_oneRead :
    (system (Fin 1) 0 0).StatesMeet State.CountersExact (State.fresh (Fin 1) 1 0 0) oneRead ∧
      (system (Fin 1) 0 0).StatesMeet State.Satisfied (State.fresh (Fin 1) 1 0 0)
        (calls 0 (.read 0 false) 3) := by
  have facts : (system (Fin 1) 0 0).StepsMeet FindsRoom (State.fresh (Fin 1) 1 0 0) oneRead ∧
      (system (Fin 1) 0 0).StepsMeet (fun source label target =>
        FindsRoom source label target ∧ BetweenPublishes source label target)
          (State.fresh (Fin 1) 1 0 0) (calls 0 (.read 0 false) 3) := by
    decide +kernel
  exact ⟨(counters_exact_iff_room 1 oneRead).1.mpr facts.1,
    (counters_exact_iff_room 1 oneRead).2 _ _ (by decide : (State.fresh (Fin 1) 1 0 0).Satisfied)
      facts.2⟩

/-! ## One reader reads again and again -/

/-- Where a party is, what the words say, and what has been released. -/
structure State.Shows (state : State ι) (party : ι) (pc : Pc) (sequence : SequenceState)
    (readers : ReadersStateCount) (consumed : List (ι × BitVec 64)) : Prop where
  here : state.pc party = pc
  sequence : state.msg.getSequenceState = sequence
  readers : state.msg.getReaderState = readers
  consumed : History.consumed state.log = consumed

section Shows

omit [Fintype ι]

variable {party : ι} {state : State ι} {pc : Pc} {sequence : SequenceState}
  {readers policy : ReadersStateCount} {consumed : List (ι × BitVec 64)}

/-- A step that changes no word and records neither a publish nor a release. -/
theorem State.Shows.quiet (shows : state.Shows party pc sequence readers consumed) (choice : Choice)
    {act : Act} (taken : next state.msg choice pc = some act)
    (words : act.effect = .observe ∨ ∃ which, act.effect = .notify which ∨ act.effect = .wake which)
    (unpublished : ∀ message, act.event ≠ some (.published message))
    (unreleased : ∀ sequence, act.event ≠ some (.released sequence)) :
    ∃ target, Alone party state target ∧ target.Shows party act.pc sequence readers consumed := by
  refine ⟨_, Alone.step (shows.here ▸ taken) (Alone.refl party _), ?_⟩
  constructor
  · exact State.perform_pc_self _ _ _
  · rw [State.perform_msg, Effect.getSequenceState_apply]
    rcases words with is | ⟨which, is | is⟩ <;> rw [is] <;> exact shows.sequence
  · rw [State.perform_msg, Effect.getReaderState_apply]
    rcases words with is | ⟨which, is | is⟩ <;> rw [is] <;> exact shows.readers
  · rw [History.consumed_perform]
    split
    · rename_i message event
      exact absurd event (unpublished message)
    · rename_i sequence event
      exact absurd event (unreleased sequence)
    · exact shows.consumed

/-- An update that always changes the word. -/
theorem State.Shows.update {site : UpdateSite}
    (shows : state.Shows party (.update site) sequence readers consumed) (counts : site.Counts)
    (run : site.mutator.run readers = some policy) :
    ∃ target, Alone party state target ∧ target.Shows party (site.after policy) sequence policy
      (match site.event with
        | some (.released number) => consumed ++ [(party, number)]
        | _ => consumed) := by
  have word := shows.readers
  rw [← word] at run
  have tries : attempt site state.msg.readersState = .goto (.cas site state.msg.readersState) := by
    unfold attempt
    rw [show site.mutator.run (.ofPacked state.msg.readersState) = some policy from run]
    exact if_neg (site.toPacked_ne counts run)
  have exchanged : casStep state.msg site state.msg.readersState false =
      ⟨.mutate site.mutator, site.after policy, site.event⟩ := by
    unfold casStep
    rw [show site.mutator.run (.ofPacked state.msg.readersState) = some policy from run]
    exact if_pos ⟨rfl, rfl⟩
  refine ⟨state.perform party ⟨.mutate site.mutator, site.after policy, site.event⟩, ?_, ?_⟩
  · have computed : next state.msg .go (state.pc party) =
        some (.goto (.cas site state.msg.readersState)) := by
      rw [shows.here]
      exact congrArg some tries
    refine Alone.step computed ?_
    have updated : next state.msg .go
        ((state.perform party (.goto (.cas site state.msg.readersState))).pc party) =
          some ⟨.mutate site.mutator, site.after policy, site.event⟩ := by
      rw [State.perform_pc_self]
      exact congrArg some exchanged
    refine Alone.step updated ?_
    rw [State.perform_goto]
    exact Alone.refl party _
  · constructor
    · exact State.perform_pc_self _ _ _
    · rw [State.perform_msg, Effect.getSequenceState_apply]
      exact shows.sequence
    · exact SharedMessage.getReaderState_mutate run
    · rw [History.consumed_perform, shows.consumed]
      cases site <;> rfl

/-- A party that says it has read nothing gets a guard for the message. -/
theorem State.Shows.reads (shows : state.Shows party .idle sequence readers consumed)
    (new : sequence.sequence ≠ 0) (down : sequence.writingInProgress = false) :
    ∃ target, Alone party state target ∧ target.Shows party (.readGuard sequence.sequence) sequence
      { readers with activeReaders := readers.activeReaders + 1 } consumed := by
  obtain ⟨first, asks, shows⟩ := shows.quiet (.invoke (.read 0 false)) rfl (.inl rfl) (by simp) (by simp)
  obtain ⟨second, loads, shows⟩ := shows.quiet .go rfl (.inl rfl) (by simp) (by simp)
  have decides : readDecision second.msg.getSequenceState 0 false (first.msg.notified .writer) =
      .goto (.update (.register 0 false sequence.sequence)) := by
    rw [shows.sequence]
    have other : ¬ (sequence.stopped ∧ sequence.sequence = 0) := fun ended => new ended.2
    exact ((if_neg other).trans (if_neg new)).trans (if_neg (by simp [down]))
  obtain ⟨third, finds, shows⟩ :=
    shows.quiet .go (congrArg some decides) (.inl rfl) (by simp) (by simp)
  obtain ⟨fourth, registers, shows⟩ := shows.update (by trivial) rfl
  have unchanged : ¬ (fourth.msg.getSequenceState.writingInProgress ∨
      fourth.msg.currentSequence ≠ sequence.sequence) := by
    rw [SharedMessage.currentSequence, shows.sequence, down]
    simp
  obtain ⟨last, verifies, shows⟩ :=
    shows.quiet .go (congrArg some (if_neg unchanged)) (.inl rfl) (by simp) (by simp)
  exact ⟨last, asks.trans (loads.trans (finds.trans (registers.trans verifies))), shows⟩

/-- A party releases its guard. -/
theorem State.Shows.releases {number : BitVec 64}
    (shows : state.Shows party (.readGuard number) sequence readers consumed) :
    ∃ target, Alone party state target ∧ target.Shows party .idle sequence
      { readers with
        activeReaders := readers.activeReaders - 1
        dataConsumed := readers.dataConsumed + 1 } (consumed ++ [(party, number)]) := by
  obtain ⟨first, drops, shows⟩ := shows.quiet .drop rfl (.inl rfl) (by simp) (by simp)
  obtain ⟨second, updates, shows⟩ := shows.update (by trivial) rfl
  have taken := drops.trans updates
  by_cases last : readers.activeReaders - 1 = 0
  · rw [UpdateSite.after, if_pos last] at shows
    obtain ⟨third, notifies, shows⟩ := shows.quiet .go rfl (.inr ⟨_, .inl rfl⟩) (by simp) (by simp)
    obtain ⟨fourth, wakes, shows⟩ := shows.quiet .go rfl (.inr ⟨_, .inr rfl⟩) (by simp) (by simp)
    obtain ⟨fifth, returns, shows⟩ := shows.quiet .go rfl (.inl rfl) (by simp) (by simp)
    exact ⟨fifth, taken.trans (notifies.trans (wakes.trans returns)), shows⟩
  · rw [UpdateSite.after, if_neg last] at shows
    obtain ⟨third, returns, shows⟩ := shows.quiet .go rfl (.inl rfl) (by simp) (by simp)
    exact ⟨third, taken.trans returns, shows⟩

/-- The message is read and released any number of times. -/
theorem State.Shows.rereads (shows : state.Shows party .idle sequence readers consumed)
    (new : sequence.sequence ≠ 0) (down : sequence.writingInProgress = false) (count : Nat) :
    ∃ target, Alone party state target ∧ target.Shows party .idle sequence
      { readers with dataConsumed := readers.dataConsumed + BitVec.ofNat 16 count }
      (consumed ++ List.replicate count (party, sequence.sequence)) := by
  induction count generalizing state readers consumed with
  | zero => exact ⟨state, Alone.refl party state, by simpa using shows⟩
  | succ count ih =>
      obtain ⟨first, reads, shows⟩ := shows.reads new down
      obtain ⟨second, releases, shows⟩ := shows.releases
      obtain ⟨last, rest, shows⟩ := ih shows
      refine ⟨last, (reads.trans releases).trans rest, ?_⟩
      have active : readers.activeReaders + 1 - 1 = readers.activeReaders :=
        BitVec.add_sub_cancel _ _
      have counter : readers.dataConsumed + 1 + BitVec.ofNat 16 count =
          readers.dataConsumed + BitVec.ofNat 16 (count + 1) := by
        rw [BitVec.add_assoc, Nat.add_comm count, BitVec.ofNat_add]
        rfl
      rw [active, counter, List.append_assoc] at shows
      rwa [List.replicate_succ]

end Shows

/-- A message is published for one registered consumer, which is awaited. -/
def oneConsumer : State (Fin 1) :=
  (system (Fin 1) 65535 1).finish (State.fresh (Fin 1) 1 65535 1) (calls 0 (.writeSlice [7]) 16)
    (by decide +kernel)

/-- After one release of the message the target is met; after 65536 releases of it
the counter is zero, and the target is not met. -/
theorem rereads_wrap_data_consumed :
    ∃ once again, (system (Fin 1) 65535 1).Reachable once ∧ Alone 0 once again ∧
      (History.consumed once.log).length = 1 ∧ once.Satisfied ∧
      (History.consumed again.log).length = 65536 ∧
      again.msg.getReaderState = ⟨65535, 1, 0, 0⟩ ∧ ¬ again.Satisfied ∧ ¬ again.CountersExact := by
  have facts : oneConsumer.pc 0 = .idle ∧ oneConsumer.msg.getSequenceState = ⟨1, false, false⟩ ∧
      oneConsumer.msg.getReaderState = ⟨65535, 1, 0, 0⟩ ∧ History.consumed oneConsumer.log = [] := by
    decide +kernel
  obtain ⟨idle, number, readers, none⟩ := facts
  have start : oneConsumer.Shows 0 .idle ⟨1, false, false⟩ ⟨65535, 1, 0, 0⟩ [] :=
    ⟨idle, number, readers, none⟩
  obtain ⟨once, reads, first⟩ := start.rereads (by decide) rfl 1
  obtain ⟨again, taken, last⟩ := first.rereads (by decide) rfl 65535
  have reached : (system (Fin 1) 65535 1).Reachable once :=
    reads.reachable (System.reachable_finish (initial_fresh (Fin 1) 1 65535 1) _)
  have firstLength : (History.consumed once.log).length = 1 := by
    rw [first.consumed]
    rfl
  have lastLength : (History.consumed again.log).length = 65536 := by
    rw [last.consumed, List.length_append, List.length_append, List.length_replicate,
      List.length_replicate]
    rfl
  have counter : again.msg.getReaderState = ⟨65535, 1, 0, 0⟩ := last.readers
  have met : once.Satisfied := by
    rw [State.Satisfied, first.readers]
    decide
  have unmet : ¬ again.Satisfied := by
    rw [State.Satisfied, counter]
    decide
  refine ⟨once, again, reached, taken, firstLength, met, lastLength, counter, unmet, ?_⟩
  intro counters
  have uncleared : ¬ ∃ party, (again.pc party).cleared = true := by
    rintro ⟨party, cleared⟩
    rw [Subsingleton.elim party 0, last.here] at cleared
    cases cleared
  have released := counters.released
  rw [State.releases, if_neg uncleared, lastLength, counter] at released
  exact absurd released (by decide)

end RsIpc
