import RsIpc.SharedMessage.Consumption
import RsIpc.SharedMessage.Waiting

/-!
# Whom a writer waits for

`start_write` goes past its backpressure loop when `data_consumed` has reached
`min(target_read, consumers)`.  The comparison is about the registered consumers
as long as whoever was counted is still registered: `remove_reader` takes a
consumer out of one counter and leaves its release in the other.
-/

namespace RsIpc

open Protocol Protocol.Handshake Transition

universe u

variable {ι : Type u}

/-- The sequence number that `start_write` has loaded for its backpressure loop. -/
def Pc.loaded : Pc → Option (BitVec 64)
  | .loadReaders _ currentSeq => some currentSeq
  | _ => none

/-- The points of `start_write` that load the readers word to see whom to wait for. -/
def Pc.checking : Pc → Bool
  | .loadReaders _ _ | .nextReaders _ _ => true
  | _ => false

/-- `start_write` is not going to wait for the consumers any more. -/
def Pc.past : Pc → Bool
  | .setWriting _ => true
  | .firstTicket _ readerState => readerState.getTargetConsumed ≤ readerState.dataConsumed
  | _ => false

theorem WaitSite.loaded_resume (site : WaitSite) (ticket : Nat) :
    site.resume.loaded = (Pc.parked site ticket).loaded := by
  cases site <;> rfl

theorem Pc.holds_of_loaded {pc : Pc} {currentSeq : BitVec 64}
    (loaded : pc.loaded = some currentSeq) : pc.phase.Holds := by
  cases pc with
  | loadReaders writer currentSeq => exact .inl rfl
  | _ => cases loaded

theorem Pc.holds_of_checking {pc : Pc} (checking : pc.checking = true) : pc.phase = .holding := by
  cases pc with
  | loadReaders writer currentSeq | nextReaders writer ticket => rfl
  | _ => cases checking

/-- A loaded sequence number is the one that was in the word. -/
theorem Takes.loaded {msg : SharedMessage} {pc : Pc} {act : Act} (takes : Takes msg pc act)
    {currentSeq : BitVec 64} (loaded : act.pc.loaded = some currentSeq) :
    (act.effect.apply msg).currentSequence = currentSeq := by
  cases takes with
  | loadSequence writer => exact Option.some.inj loaded
  | invoke operation => cases operation <;> cases loaded
  | waitReturns site ticket spins changed | wakeUp site ticket => cases site <;> cases loaded
  | wake site => cases site <;> cases loaded
  | update site policy run =>
      cases site with
      | release sequence =>
          simp only [UpdateSite.after] at loaded
          split at loaded <;> cases loaded
      | _ => cases loaded
  | _ => cases loaded

/-- A load of the readers word that lets `start_write` past found enough releases,
or a sequence number of zero. -/
theorem Takes.passes {msg : SharedMessage} {pc : Pc} {act : Act} (takes : Takes msg pc act)
    (checking : pc.checking = true) (past : act.pc.past = true) :
    act.effect = .observe ∧ (msg.getReaderState.getTargetConsumed ≤ msg.getReaderState.dataConsumed ∨
      pc.loaded = some 0) := by
  cases takes with
  | loadReaders writer currentSeq target positive => exact ⟨rfl, .inl (by simpa [Pc.past] using past)⟩
  | loadReadersPass writer currentSeq free =>
      refine ⟨rfl, ?_⟩
      rcases not_and_or.mp free with none | zero
      · exact .inl (by bv_omega)
      · exact .inr (congrArg some (by bv_omega))
  | nextPass writer ticket consumed => exact ⟨rfl, .inl (BitVec.not_lt.mp consumed)⟩
  | nextWait writer ticket pending => cases past
  | panic site at_ membership => rcases at_ with rfl | ⟨packed, rfl⟩ <;> cases checking
  | unchanged size at_ same => rcases at_ with rfl | ⟨packed, rfl⟩ <;> cases checking
  | unchangedTarget count at_ same => rcases at_ with rfl | ⟨packed, rfl⟩ <;> cases checking
  | compute site at_ => rcases at_ with rfl | ⟨packed, rfl⟩ <;> cases checking
  | _ => cases checking

section Runs

variable [DecidableEq ι] {targetRead consumers : BitVec 16} {state : State ι}

/-- Nobody publishes between the two loads of `start_write`. -/
theorem currentSequence_of_loaded
    (reachable : (system ι targetRead consumers).Reachable state) {party : ι}
    {currentSeq : BitVec 64} (loaded : (state.pc party).loaded = some currentSeq) :
    state.msg.currentSequence = currentSeq := by
  refine reachable.invariant (fun state => ∀ party currentSeq,
    (state.pc party).loaded = some currentSeq → state.msg.currentSequence = currentSeq)
    ?_ ?_ party currentSeq loaded
  · rintro _ ⟨capacity, rfl⟩ party currentSeq loaded
    cases loaded
  · rintro source ⟨party, choice⟩ target before same step _ other currentSeq loaded
    obtain ⟨act, next, rfl⟩ := State.step_eq_some_iff.mp step
    rw [State.view_perform Pc.loaded WaitSite.loaded_resume] at loaded
    split at loaded
    · exact (next_takes next).loaded loaded
    · rename_i ne
      rcases (next_move next).writing_of_changes with writes | ⟨_, _, kept⟩
      · have owned := owned_of_reachable before
        exact absurd (owned.unique (Pc.holds_of_loaded loaded) (.inr (.inr writes))) ne
      · exact kept.trans (same other currentSeq loaded)

variable [Fintype ι] {initially : ι → Bool}

/-- A load that lets a writer past found the releases of the registered consumers. -/
theorem consumed_of_passes (initial : consumers.toNat = count fun party => initially party = true)
    (reachable : (system ι targetRead consumers).ReachableVia (Abiding initially) state)
    {party : ι} {choice : Choice} {target : State ι}
    (step : state.step (party, choice) = some target)
    (checking : (state.pc party).checking = true) (past : (target.pc party).past = true)
    (published : 0 < state.msg.currentSequence) :
    min state.msg.getReaderState.targetRead.toNat
        (count fun consumer => History.enrolled initially state.log consumer = true) ≤
      count fun consumer => History.enrolled initially state.log consumer = true ∧
        (consumer, state.msg.currentSequence) ∈ History.consumed state.log := by
  have counted := counted_of_abiding initial reachable
  have registered := consumers_eq_count initial (reachable.mono fun abiding => abiding.1)
  have uncleared : ∀ other, (state.pc other).cleared = false := by
    intro other
    by_contra cleared
    have writes := Pc.phase_of_cleared (by simpa using cleared)
    have holds := Pc.holds_of_checking checking
    have here := (owned_of_reachable reachable.reachable).unique (.inr (.inr writes)) (.inl holds)
    subst here
    exact absurd (writes.symm.trans holds) (by decide)
  obtain ⟨act, next, rfl⟩ := State.step_eq_some_iff.mp step
  rw [State.perform_pc_self] at past
  rcases ((next_takes next).passes checking past).2 with enough | zero
  · rw [BitVec.le_def, ReadersStateCount.toNat_getTargetConsumed, registered,
      counted.counted uncleared] at enough
    exact enough.trans counted.length_le
  · rw [currentSequence_of_loaded reachable.reachable zero] at published
    exact absurd published (by decide)

end Runs

/-- Whenever a load of the readers word lets a writer past its backpressure loop
over a published message, at least `min(target_read, consumers)` of the consumers
registered at that load have released a guard for the message; with the policy
for all readers, every one has.  The consumers start unregistered and none of
them leaves between a release and the next publish. -/
theorem registered_consumers_have_consumed [DecidableEq ι] [Fintype ι] {targetRead : BitVec 16}
    {state target : State ι} {party : ι} {choice : Choice}
    (reachable : (system ι targetRead 0).ReachableVia (Abiding fun _ => false) state)
    (step : state.step (party, choice) = some target)
    (checking : (state.pc party).checking = true) (past : (target.pc party).past = true)
    (published : 0 < state.msg.currentSequence) :
    min state.msg.getReaderState.targetRead.toNat
        (count fun consumer => History.enrolled (fun _ => false) state.log consumer = true) ≤
      count (fun consumer => History.enrolled (fun _ => false) state.log consumer = true ∧
        (consumer, state.msg.currentSequence) ∈ History.consumed state.log) ∧
    (state.msg.getReaderState.targetRead = 65535 → ∀ consumer,
      History.enrolled (fun _ => false) state.log consumer = true →
        (consumer, state.msg.currentSequence) ∈ History.consumed state.log) := by
  have initial : (0 : BitVec 16).toNat = count fun _ : ι => false = true :=
    (count_eq_zero_iff.mpr fun _ => Bool.false_ne_true).symm
  have enough := consumed_of_passes initial reachable step checking past published
  refine ⟨enough, ?_⟩
  intro all consumer enrolled
  have registered := consumers_eq_count initial (reachable.mono fun abiding => abiding.1)
  have bound := state.msg.getReaderState.consumers.isLt
  rw [all, ← registered, Nat.min_eq_right (by simp; omega), registered] at enough
  exact imp_of_count_le enough enrolled

/-- Both of two registered consumers have read, and a writer looks at the counters. -/
def consumedByAll : State (Fin 3) :=
  (system (Fin 3) 65535 0).finish (State.fresh (Fin 3) 1 65535 0)
    (calls 1 .addReader 3 ++ calls 2 .addReader 3 ++ calls 0 (.writeSlice [7]) 16 ++
      calls 1 (.read 0 true) 5 ++ (1, .drop) :: advances 1 5 ++
      calls 2 (.read 0 true) 5 ++ (2, .drop) :: advances 2 5 ++ calls 0 .write 3)
    (by decide +kernel)

theorem consumedByAll_is_consumed :
    (1, consumedByAll.msg.currentSequence) ∈ History.consumed consumedByAll.log ∧
      (2, consumedByAll.msg.currentSequence) ∈ History.consumed consumedByAll.log := by
  have reachable : (system (Fin 3) 65535 0).ReachableVia (Abiding fun _ => false) consumedByAll :=
    System.reachableVia_finish (initial_fresh (Fin 3) 1 65535 0) _ (by decide +kernel)
  have facts : (consumedByAll.pc 0).checking = true ∧ 0 < consumedByAll.msg.currentSequence ∧
      consumedByAll.msg.getReaderState.targetRead = 65535 ∧
      (consumedByAll.step (0, .go)).any (fun target => (target.pc 0).past) = true ∧
      History.enrolled (fun _ => false) consumedByAll.log 1 = true ∧
      History.enrolled (fun _ => false) consumedByAll.log 2 = true := by
    decide +kernel
  obtain ⟨checking, published, all, past, first, second⟩ := facts
  obtain ⟨target, step, past⟩ := (Option.any_eq_true _ _).mp past
  have consumed := (registered_consumers_have_consumed reachable step checking past published).2 all
  exact ⟨consumed 1 first, consumed 2 second⟩

/-- Of two registered consumers one has read and left; the other has not read. -/
def departedConsumer : State (Fin 3) :=
  (system (Fin 3) 65535 0).finish (State.fresh (Fin 3) 1 65535 0)
    (calls 1 .addReader 3 ++ calls 2 .addReader 3 ++ calls 0 (.writeSlice [7]) 16 ++
      calls 1 (.read 0 true) 5 ++ (1, .drop) :: advances 1 5 ++ calls 1 .removeReader 3 ++
      calls 0 .write 3) (by decide +kernel)

/-- The writer is let past although the one registered consumer has not read. -/
theorem departedConsumer_is_counted :
    (system (Fin 3) 65535 0).ReachableVia (Disciplined fun _ => false) departedConsumer ∧
      (departedConsumer.pc 0).checking = true ∧
      (departedConsumer.step (0, .go)).any (fun target => (target.pc 0).past) = true ∧
      departedConsumer.msg.currentSequence = 1 ∧
      ¬ min departedConsumer.msg.getReaderState.targetRead.toNat
          (count fun consumer =>
            History.enrolled (fun _ => false) departedConsumer.log consumer = true) ≤
        count fun consumer =>
          History.enrolled (fun _ => false) departedConsumer.log consumer = true ∧
            (consumer, departedConsumer.msg.currentSequence) ∈
              History.consumed departedConsumer.log :=
  ⟨System.reachableVia_finish (initial_fresh (Fin 3) 1 65535 0) _ (by decide +kernel),
    by decide +kernel⟩

end RsIpc
