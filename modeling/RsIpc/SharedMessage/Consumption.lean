import RsIpc.SharedMessage.Membership

/-!
# Who has consumed the message

`data_consumed` counts releases, whoever makes them.  Between two publishes a
registered consumer releases at most one guard, since it reads with the number
of its last guard.  So the counter is the number of consumers that have
consumed the current message, as long as none of them leaves.
-/

namespace RsIpc

open Protocol Protocol.Handshake Transition

universe u

variable {ι : Type u}

/-! ## Releases since the last publish -/

/-- Who has released a guard since the last publish, and for which number. -/
def History.consumed (log : List (ι × Event)) : List (ι × BitVec 64) :=
  log.foldl (fun consumed entry =>
    match entry.2 with
    | .published _ => []
    | .released sequence => consumed ++ [(entry.1, sequence)]
    | _ => consumed) []

theorem History.consumed_append (log : List (ι × Event)) (party : ι) (event : Event) :
    consumed (log ++ [(party, event)]) =
      match event with
      | .published _ => []
      | .released sequence => consumed log ++ [(party, sequence)]
      | _ => consumed log := by
  rw [consumed, List.foldl_append]
  rfl

/-- `publish_write` has reset the counter and not yet exchanged the sequence word. -/
def Pc.cleared : Pc → Bool
  | .loadPacked _ | .exchange _ _ => true
  | _ => false

theorem WaitSite.cleared_resume (site : WaitSite) (ticket : Nat) :
    site.resume.cleared = (Pc.parked site ticket).cleared := by
  cases site <;> rfl

theorem Pc.phase_of_cleared {pc : Pc} (cleared : pc.cleared = true) : pc.phase = .writing := by
  cases pc with
  | loadPacked size | exchange size oldPacked => rfl
  | _ => cases cleared

/-- What a step does to the counter and to the releases. -/
inductive Consumption (msg : SharedMessage) (pc : Pc) (act : Act) : Prop
  | kept
      (words : (act.effect.apply msg).getReaderState.dataConsumed = msg.getReaderState.dataConsumed)
      (same : act.pc.cleared = pc.cleared)
      (unpublished : ∀ message, act.event ≠ some (.published message))
      (unreleased : ∀ sequence, act.event ≠ some (.released sequence))
  | reset (event : act.event = none) (clears : act.pc.cleared = true)
      (words : (act.effect.apply msg).getReaderState.dataConsumed = 0)
  | released (sequence : BitVec 64) (guard : pc.guard = some sequence)
      (event : act.event = some (.released sequence)) (drops : act.pc.guard = none)
      (uncleared : act.pc.cleared = false)
      (words : (act.effect.apply msg).getReaderState.dataConsumed =
        msg.getReaderState.dataConsumed + 1)
  | published (message : Message) (cleared : pc.cleared = true)
      (event : act.event = some (.published message))
      (words : (act.effect.apply msg).getReaderState = msg.getReaderState)

theorem Takes.consumption {msg : SharedMessage} {pc : Pc} {act : Act} (takes : Takes msg pc act) :
    Consumption msg pc act := by
  cases takes with
  | exchange size => exact .published (msg.message size) rfl rfl (Effect.getReaderState_apply _ _)
  | unchanged size at_ same => exact .reset rfl rfl same
  | loadPacked size | exchangeFails size oldPacked => exact .kept rfl rfl (fun _ is => by cases is) (fun _ is => by cases is)
  | update site policy run =>
      have words := SharedMessage.getReaderState_mutate run
      cases site with
      | release sequence =>
          cases run
          refine .released sequence rfl rfl ?_ ?_ (by rw [words])
          · simp only [UpdateSite.after]
            split <;> rfl
          · simp only [UpdateSite.after]
            split <;> rfl
      | resetConsumed size =>
          cases run
          exact .reset rfl rfl (by rw [words])
      | addReader | removeReader =>
          simp only [UpdateSite.mutator, Mutator.run, Option.ite_none_left_eq_some,
            Option.some.injEq] at run
          obtain ⟨_, rfl⟩ := run
          exact .kept (by rw [words]) rfl (fun _ is => by cases is) (fun _ is => by cases is)
      | _ =>
          cases run
          exact .kept (by rw [words]) rfl (fun _ is => by cases is) (fun _ is => by cases is)
  | notify site => exact .kept (by rw [Effect.getReaderState_apply]) rfl (fun _ is => by cases is) (fun _ is => by cases is)
  | invoke operation => cases operation <;> exact .kept rfl rfl (fun _ is => by cases is) (fun _ is => by cases is)
  | waitReturns site ticket spins changed | wakeUp site ticket =>
      exact .kept rfl (site.cleared_resume ticket) (fun _ is => by cases is) (fun _ is => by cases is)
  | wake site => cases site <;> exact .kept rfl rfl (fun _ is => by cases is) (fun _ is => by cases is)
  | panic site at_ membership =>
      rcases at_ with rfl | ⟨packed, rfl⟩ <;> exact .kept rfl rfl (fun _ is => by cases is) (fun _ is => by cases is)
  | unchangedTarget count at_ same =>
      rcases at_ with rfl | ⟨packed, rfl⟩ <;> exact .kept rfl rfl (fun _ is => by cases is) (fun _ is => by cases is)
  | compute site at_ => rcases at_ with rfl | ⟨packed, rfl⟩ <;> exact .kept rfl rfl (fun _ is => by cases is) (fun _ is => by cases is)
  | _ => exact .kept rfl rfl (fun _ is => by cases is) (fun _ is => by cases is)

/-- A release ends the guard of the party that makes it. -/
theorem Takes.guard_of_released {msg : SharedMessage} {pc : Pc} {act : Act}
    (takes : Takes msg pc act) {sequence : BitVec 64}
    (event : act.event = some (.released sequence)) :
    pc.guard = some sequence ∧ act.pc.guard = none ∧ act.pc.cleared = false ∧
      (act.effect.apply msg).getReaderState.dataConsumed =
        msg.getReaderState.dataConsumed + 1 := by
  cases takes.consumption with
  | kept words same unpublished unreleased => exact absurd event (unreleased sequence)
  | reset none clears words =>
      rw [none] at event
      cases event
  | released number guard released drops uncleared words =>
      rw [released] at event
      cases event
      exact ⟨guard, drops, uncleared, words⟩
  | published message cleared published words =>
      rw [published] at event
      cases event

/-! ## The counter and the releases -/

/-- The counter is the number of releases since the last publish, and zero between
its reset and the exchange. -/
structure Tallied (state : State ι) : Prop where
  cleared : ∀ party, (state.pc party).cleared = true →
    state.msg.getReaderState.dataConsumed = 0
  counted : (∀ party, (state.pc party).cleared = false) →
    state.msg.getReaderState.dataConsumed.toNat = (History.consumed state.log).length

/-- While a guard is held nobody has cleared the counter. -/
theorem not_cleared_of_guard {state : State ι} (excluded : Excluded state.handshake) {holder : ι}
    {sequence : BitVec 64} (guard : (state.pc holder).guard = some sequence) (other : ι) :
    (state.pc other).cleared = false := by
  by_contra cleared
  exact excluded other (Pc.phase_of_cleared (by simpa using cleared)) holder
    (Pc.phase_of_guard guard)

section Tally

variable [DecidableEq ι]

theorem History.consumed_perform (state : State ι) (party : ι) (act : Act) :
    consumed (state.perform party act).log =
      match act.event with
      | some (.published _) => []
      | some (.released sequence) => consumed state.log ++ [(party, sequence)]
      | _ => consumed state.log := by
  rw [State.perform_log]
  cases act.event with
  | none => rw [Option.toList_none, List.map_nil, List.append_nil]
  | some event =>
      rw [Option.toList_some, List.map_singleton, consumed_append]
      cases event <;> rfl

theorem History.consumed_perform_none (state : State ι) (party : ι) {act : Act}
    (event : act.event = none) : consumed (state.perform party act).log = consumed state.log := by
  rw [consumed_perform, event]

variable {source : State ι} {party : ι} {choice : Choice} {act : Act}

theorem Tallied.step_cleared (tallied : Tallied source) (excluded : Excluded source.handshake)
    (next : next source.msg choice (source.pc party) = some act) (other : ι)
    (cleared : ((source.perform party act).pc other).cleared = true) :
    (act.effect.apply source.msg).getReaderState.dataConsumed = 0 := by
  rw [State.view_perform Pc.cleared WaitSite.cleared_resume] at cleared
  cases (next_takes next).consumption with
  | kept words same unpublished unreleased =>
      rw [words]
      split at cleared
      · exact tallied.cleared party (same.symm.trans cleared)
      · exact tallied.cleared other cleared
  | reset event clears words => exact words
  | released sequence guard event drops uncleared words =>
      split at cleared
      · exact absurd (uncleared.symm.trans cleared) (by decide)
      · exact absurd ((not_cleared_of_guard excluded guard other).symm.trans cleared) (by decide)
  | published message clears event words =>
      rw [words]
      exact tallied.cleared party clears

/-- The counter follows the releases as long as each finds room in it. -/
theorem Tallied.step_counted (tallied : Tallied source) (excluded : Excluded source.handshake)
    (next : next source.msg choice (source.pc party) = some act)
    (room : ∀ sequence, act.event = some (.released sequence) →
      source.msg.getReaderState.dataConsumed ≠ BitVec.allOnes 16)
    (uncleared : ∀ other, ((source.perform party act).pc other).cleared = false) :
    (act.effect.apply source.msg).getReaderState.dataConsumed.toNat =
      (History.consumed (source.perform party act).log).length := by
  rw [History.consumed_perform]
  cases (next_takes next).consumption with
  | kept words same unpublished unreleased =>
      have before : ∀ other, (source.pc other).cleared = false := by
        intro other
        have after := uncleared other
        rw [State.view_perform Pc.cleared WaitSite.cleared_resume] at after
        split at after
        · rename_i here
          rw [here]
          exact same.symm.trans after
        · exact after
      rw [words, tallied.counted before]
      split
      · rename_i message event
        exact absurd event (unpublished message)
      · rename_i sequence event
        exact absurd event (unreleased sequence)
      · rfl
  | reset event clears words =>
      have after := uncleared party
      rw [State.perform_pc_self] at after
      exact absurd (after.symm.trans clears) (by decide)
  | released sequence guard event drops kept words =>
      have exact_ := tallied.counted (not_cleared_of_guard excluded guard)
      have notFull := room sequence event
      rw [words, event]
      simp only [List.length_append, List.length_singleton]
      have max : (BitVec.allOnes 16).toNat = 65535 := BitVec.toNat_allOnes
      bv_omega
  | published message cleared event words =>
      rw [words, event, tallied.cleared party cleared]
      rfl

end Tally

/-! ## Runs in which nobody leaves early -/

section Runs

variable [DecidableEq ι] {targetRead consumers : BitVec 16} {initially : ι → Bool}

/-- No consumer leaves after it has released a guard and before the next publish. -/
def StaysUntilPublish : StepCondition (State ι) (ι × Choice) :=
  fun source label target => target.log = source.log ++ [(label.1, .left)] →
    label.1 ∉ (History.consumed source.log).map Prod.fst

instance (source : State ι) (label : ι × Choice) (target : State ι) :
    Decidable (StaysUntilPublish source label target) :=
  inferInstanceAs (Decidable (_ → _))

/-- Disciplined consumers that stay until the next publish. -/
def Abiding (initially : ι → Bool) : StepCondition (State ι) (ι × Choice) :=
  fun source label target =>
    Disciplined initially source label target ∧ StaysUntilPublish source label target

instance (source : State ι) (label : ι × Choice) (target : State ι) :
    Decidable (Abiding initially source label target) :=
  inferInstanceAs (Decidable (_ ∧ _))

/-- The counter and the guards agree with the releases since the last publish. -/
structure Counted (initially : ι → Bool) (state : State ι) : Prop where
  cleared : ∀ party, (state.pc party).cleared = true →
    state.msg.getReaderState.dataConsumed = 0
  counted : (∀ party, (state.pc party).cleared = false) →
    state.msg.getReaderState.dataConsumed.toNat = (History.consumed state.log).length
  single : ((History.consumed state.log).map Prod.fst).Nodup
  current : ∀ entry ∈ History.consumed state.log,
    History.enrolled initially state.log entry.1 = true ∧
      entry.2 = state.msg.currentSequence ∧
        History.lastAdmitted (· = entry.1) state.log = state.msg.currentSequence
  guarded : ∀ party sequence, (state.pc party).guard = some sequence →
    state.msg.currentSequence = sequence ∧
      History.lastAdmitted (· = party) state.log = sequence ∧
        party ∉ (History.consumed state.log).map Prod.fst

theorem Counted.tallied {state : State ι} (counted : Counted initially state) : Tallied state :=
  ⟨counted.cleared, counted.counted⟩

/-- The number of the last guard changes only for a party that is admitted. -/
theorem lastAdmitted_perform {source : State ι} {party : ι} {choice : Choice} {act : Act}
    (next : next source.msg choice (source.pc party) = some act) (other : ι) :
    (∃ lastSeenSeq block, other = party ∧
        source.pc party = .verify lastSeenSeq block source.msg.currentSequence ∧
        act = ⟨.observe, .readGuard source.msg.currentSequence,
          some (.admitted source.msg.currentSequence)⟩) ∨
      History.lastAdmitted (· = other) (source.perform party act).log =
        History.lastAdmitted (· = other) source.log := by
  rcases admitStep_or_same (· = other) next with ⟨lastSeenSeq, block, here, granted⟩ | same
  · exact .inl ⟨lastSeenSeq, block, here.symm, granted⟩
  · exact .inr (congrArg (fun numbers => numbers.getLastD 0) same)

variable [Fintype ι]

/-- The releases of the current message are those of different registered consumers. -/
theorem Counted.length_le {state : State ι} (counted : Counted initially state) :
    (History.consumed state.log).length ≤
      count fun party => History.enrolled initially state.log party = true ∧
        (party, state.msg.currentSequence) ∈ History.consumed state.log := by
  rw [← List.length_map Prod.fst]
  refine length_le_count counted.single ?_
  intro party consumed
  obtain ⟨entry, mem, rfl⟩ := List.mem_map.mp consumed
  obtain ⟨enrolled, number, _⟩ := counted.current entry mem
  exact ⟨enrolled, number ▸ mem⟩

section Steps

variable {source : State ι} {party : ι} {choice : Choice} {act : Act}

theorem Abiding.bounded (initial : consumers.toNat = count fun party => initially party = true)
    {state : State ι}
    (reachable : (system ι targetRead consumers).ReachableVia (Abiding initially) state) :
    (system ι targetRead consumers).ReachableVia Bounded state :=
  bounded_of_disciplined initial (reachable.mono fun abiding => abiding.1)

/-- A release leaves room in the counter. -/
theorem Counted.room (initial : consumers.toNat = count fun party => initially party = true)
    (reachable : (system ι targetRead consumers).ReachableVia (Abiding initially) source)
    (counted : Counted initially source) {sequence : BitVec 64}
    (guard : (source.pc party).guard = some sequence) :
    (History.consumed source.log).length < 65535 := by
  have disciplined := reachable.mono fun abiding => abiding.1
  have enrolled := enrolled_of_member disciplined
    (Pc.member_of_reads (.inr (Pc.phase_of_guard guard)))
  have different : (party :: (History.consumed source.log).map Prod.fst).Nodup :=
    List.nodup_cons.mpr ⟨(counted.guarded party sequence guard).2.2, counted.single⟩
  have few : (party :: (History.consumed source.log).map Prod.fst).length ≤
      count fun party => History.enrolled initially source.log party = true := by
    refine length_le_count different ?_
    intro other mem
    rcases List.mem_cons.mp mem with rfl | consumed
    · exact enrolled
    · obtain ⟨entry, released, rfl⟩ := List.mem_map.mp consumed
      exact (counted.current entry released).1
  rw [← consumers_eq_count initial disciplined, List.length_cons, List.length_map] at few
  have bound := source.msg.getReaderState.consumers.isLt
  omega

omit [Fintype ι] in
/-- A step publishes, releases a guard, or leaves the releases alone. -/
theorem consumed_of_step (next : next source.msg choice (source.pc party) = some act) :
    (∃ message, act.event = some (.published message) ∧
        History.consumed (source.perform party act).log = []) ∨
      (∃ sequence, (source.pc party).guard = some sequence ∧ act.pc.guard = none ∧
        act.event = some (.released sequence) ∧
          History.consumed (source.perform party act).log =
            History.consumed source.log ++ [(party, sequence)]) ∨
      ((∀ message, act.event ≠ some (.published message)) ∧
        History.consumed (source.perform party act).log = History.consumed source.log) := by
  rw [History.consumed_perform]
  cases (next_takes next).consumption with
  | kept words same unpublished unreleased =>
      right
      right
      refine ⟨unpublished, ?_⟩
      split
      · rename_i message event
        exact absurd event (unpublished message)
      · rename_i sequence event
        exact absurd event (unreleased sequence)
      · rfl
  | reset event clears words =>
      rw [event]
      exact .inr (.inr ⟨nofun, rfl⟩)
  | released sequence guard event drops uncleared words =>
      rw [event]
      exact .inr (.inl ⟨sequence, guard, drops, rfl, rfl⟩)
  | published message cleared event words =>
      rw [event]
      exact .inl ⟨message, rfl, rfl⟩

omit [DecidableEq ι] [Fintype ι] in
theorem currentSequence_kept (next : next source.msg choice (source.pc party) = some act)
    (unpublished : ∀ message, act.event ≠ some (.published message)) :
    (act.effect.apply source.msg).currentSequence = source.msg.currentSequence := by
  by_contra moved
  obtain ⟨message, event, _⟩ := (next_takes next).publishes moved
  exact unpublished message event

omit [Fintype ι] in
/-- A consumer registers for another number than that of its last guard. -/
theorem lastAdmitted_ne_of_verify
    (reachable : (system ι targetRead consumers).ReachableVia (Abiding initially) source)
    {lastSeenSeq sequence : BitVec 64} {block : Bool}
    (at_ : source.pc party = .verify lastSeenSeq block sequence) :
    History.lastAdmitted (· = party) source.log ≠ sequence := by
  have following : Following (· = party) source := following_of_follows
    (reachable.refine fun _ step abiding => abiding.1.follows step party)
  have seen := following.last rfl (by rw [at_]; rfl)
  have fresh := following.fresh party
  rw [at_] at fresh
  rw [← seen]
  exact fun same => fresh sequence rfl (congrArg some same)

omit [Fintype ι] in
/-- What a step that does not publish keeps of a release: the consumer is still
registered, the number still current and the guard still its last. -/
theorem Counted.current_kept
    (reachable : (system ι targetRead consumers).ReachableVia (Abiding initially) source)
    (counted : Counted initially source)
    (next : next source.msg choice (source.pc party) = some act)
    (abiding : Abiding initially source (party, choice) (source.perform party act))
    (unpublished : ∀ message, act.event ≠ some (.published message))
    {entry : ι × BitVec 64} (consumed : entry ∈ History.consumed source.log) :
    History.enrolled initially (source.perform party act).log entry.1 = true ∧
      entry.2 = (act.effect.apply source.msg).currentSequence ∧
        History.lastAdmitted (· = entry.1) (source.perform party act).log =
          (act.effect.apply source.msg).currentSequence := by
  obtain ⟨enrolled, number, last⟩ := counted.current entry consumed
  rw [currentSequence_kept next unpublished]
  refine ⟨?_, number, ?_⟩
  · by_cases here : entry.1 = party
    · rw [here, History.enrolled_perform_self]
      split
      · rfl
      · rename_i left
        have departed := abiding.2 (by rw [State.perform_log, left]; rfl)
        rw [← here] at departed
        exact absurd (List.mem_map_of_mem consumed) departed
      · exact here ▸ enrolled
    · rw [History.enrolled_perform_of_ne initially source here]
      exact enrolled
  · rcases lastAdmitted_perform next entry.1 with ⟨lastSeenSeq, block, here, at_, _⟩ | same
    · -- A consumer that has released its guard waits for another number.
      subst here
      exact absurd last (lastAdmitted_ne_of_verify reachable at_)
    · exact same.trans last

theorem Counted.step_guarded (initial : consumers.toNat = count fun party => initially party = true)
    (reachable : (system ι targetRead consumers).ReachableVia (Abiding initially) source)
    (counted : Counted initially source)
    (next : next source.msg choice (source.pc party) = some act) {other : ι}
    {sequence : BitVec 64} (guard : ((source.perform party act).pc other).guard = some sequence) :
    (act.effect.apply source.msg).currentSequence = sequence ∧
      History.lastAdmitted (· = other) (source.perform party act).log = sequence ∧
        other ∉ (History.consumed (source.perform party act).log).map Prod.fst := by
  have kept : (source.pc other).guard = some sequence →
      (act.effect.apply source.msg).currentSequence = sequence ∧
        History.lastAdmitted (· = other) (source.perform party act).log = sequence ∧
          other ∉ (History.consumed (source.perform party act).log).map Prod.fst := by
    intro held
    obtain ⟨current, last, unconsumed⟩ := counted.guarded other sequence held
    have step : source.step (party, choice) = some (source.perform party act) :=
      State.step_eq_some_iff.mpr ⟨act, next, rfl⟩
    refine ⟨?_, ?_, ?_⟩
    · exact (stable_of_admitted (Abiding.bounded initial reachable) (Pc.phase_of_guard held)
        step).2.2.trans current
    · rcases lastAdmitted_perform next other with ⟨lastSeenSeq, block, rfl, at_, _⟩ | same
      · rw [at_] at held
        cases held
      · exact same.trans last
    · rcases consumed_of_step next with
        ⟨message, _, none⟩ | ⟨number, _, drops, _, more⟩ | ⟨_, same⟩
      · rw [none]
        exact List.not_mem_nil
      · have ne : other ≠ party := by
          rintro rfl
          rw [State.perform_pc_self, drops] at guard
          cases guard
        rw [more, List.map_append, List.mem_append, not_or]
        exact ⟨unconsumed, by simpa using ne⟩
      · rwa [same]
  rw [State.view_perform Pc.guard WaitSite.guard_resume] at guard
  split at guard
  · rename_i here
    subst here
    rcases (next_takes next).guard guard with held | ⟨_, current, event, lastSeenSeq, block, at_⟩
    · exact kept held
    · refine ⟨?_, ?_, ?_⟩
      · rw [currentSequence_kept next (by rw [event]; nofun)]
        exact current
      · rw [State.perform_log, event, History.lastAdmitted, History.admitted_append]
        simp [History.admitted]
      · intro consumed
        rw [History.consumed_perform, event] at consumed
        obtain ⟨entry, mem, here⟩ := List.mem_map.mp consumed
        obtain ⟨_, _, last⟩ := counted.current entry mem
        rw [here] at last
        exact lastAdmitted_ne_of_verify reachable at_ (last.trans current)
  · exact kept guard

end Steps

/-- The counter agrees with the releases in every run that abides. -/
theorem counted_of_abiding (initial : consumers.toNat = count fun party => initially party = true)
    {state : State ι}
    (reachable : (system ι targetRead consumers).ReachableVia (Abiding initially) state) :
    Counted initially state := by
  refine reachable.invariant (Counted initially) ?_ ?_
  · rintro _ ⟨capacity, rfl⟩
    exact {
      cleared := fun _ cleared => by cases cleared
      counted := fun _ => by simp [History.consumed]
      single := List.nodup_nil
      current := fun _ consumed => by cases consumed
      guarded := fun _ _ guard => by cases guard }
  · rintro source ⟨party, choice⟩ target before counted step abiding
    obtain ⟨act, next, rfl⟩ := State.step_eq_some_iff.mp step
    have excluded := excluded_of_bounded (Abiding.bounded initial before)
    constructor
    · exact counted.tallied.step_cleared excluded next
    · refine counted.tallied.step_counted excluded next fun sequence event full => ?_
      obtain ⟨guard, _⟩ := (next_takes next).guard_of_released event
      have room := counted.room initial before guard
      rw [← counted.counted (not_cleared_of_guard excluded guard), full] at room
      exact absurd room (by decide)
    · rcases consumed_of_step next with
        ⟨message, _, none⟩ | ⟨number, guard, _, _, more⟩ | ⟨_, same⟩
      · rw [none]
        exact List.nodup_nil
      · rw [more, List.map_append, List.map_singleton, ← List.concat_eq_append]
        exact List.Nodup.concat (counted.guarded party number guard).2.2 counted.single
      · rw [same]
        exact counted.single
    · intro entry consumed
      rcases consumed_of_step next with
        ⟨message, _, none⟩ | ⟨number, guard, _, event, more⟩ | ⟨unpublished, same⟩
      · rw [none] at consumed
        cases consumed
      · rw [more, List.mem_append, List.mem_singleton] at consumed
        rcases consumed with old | rfl
        · exact counted.current_kept before next abiding (by rw [event]; nofun) old
        · obtain ⟨current, last, _⟩ := counted.guarded party number guard
          have disciplined := before.mono fun abiding => abiding.1
          have enrolled := enrolled_of_member disciplined
            (Pc.member_of_reads (.inr (Pc.phase_of_guard guard)))
          rw [State.perform_msg, currentSequence_kept next (by rw [event]; nofun), current]
          refine ⟨?_, rfl, ?_⟩
          · rw [History.enrolled_perform_quiet initially source party (by rw [event]; nofun)
              (by rw [event]; nofun)]
            exact enrolled
          · rcases lastAdmitted_perform next party with ⟨_, _, _, at_, _⟩ | same
            · rw [at_] at guard
              cases guard
            · exact same.trans last
      · rw [same] at consumed
        exact counted.current_kept before next abiding unpublished consumed
    · intro other sequence guard
      exact counted.step_guarded initial before next guard

end Runs

end RsIpc
