import RsIpc.SharedMessage.Program

/-!
# The steps of the program

`Takes` lists what a party can do at each point of the program, with the guard
under which it does it.  The list is checked against `next` once; everything
that is preserved by steps is derived from the list.
-/

namespace RsIpc

/-! ## Updates that always change the word -/

/-- Registrations and memberships change by one, so these closures never leave
the word alone. -/
theorem Mutator.toPacked_ne {mutator : Mutator} {state policy : ReadersStateCount}
    (run : mutator.run state = some policy)
    (counts : mutator = .register ∨ mutator = .unregister ∨ mutator = .release ∨
      mutator = .addReader ∨ mutator = .removeReader) : policy ≠ state := by
  have succ_ne : ∀ value : BitVec 16, value + 1 ≠ value := by
    intro value
    bv_omega
  have pred_ne : ∀ value : BitVec 16, value - 1 ≠ value := by
    intro value
    bv_omega
  intro same
  rcases counts with rfl | rfl | rfl | rfl | rfl
  · exact succ_ne state.activeReaders
      (congrArg ReadersStateCount.activeReaders ((Option.some.inj run).trans same))
  · exact pred_ne state.activeReaders
      (congrArg ReadersStateCount.activeReaders ((Option.some.inj run).trans same))
  · exact pred_ne state.activeReaders
      (congrArg ReadersStateCount.activeReaders ((Option.some.inj run).trans same))
  · simp only [Mutator.run, Option.ite_none_left_eq_some, Option.some.injEq] at run
    exact succ_ne state.consumers (congrArg ReadersStateCount.consumers (run.2.trans same))
  · simp only [Mutator.run, Option.ite_none_left_eq_some, Option.some.injEq] at run
    exact pred_ne state.consumers (congrArg ReadersStateCount.consumers (run.2.trans same))

/-- The sites whose update always changes the word. -/
def UpdateSite.Counts (site : UpdateSite) : Prop :=
  match site with
  | .resetConsumed _ | .setTarget _ => False
  | _ => True

theorem UpdateSite.toPacked_ne {site : UpdateSite} (counts : site.Counts) {packed : BitVec 64}
    {policy : ReadersStateCount} (run : site.mutator.run (.ofPacked packed) = some policy) :
    policy.toPacked ≠ packed := by
  intro same
  refine Mutator.toPacked_ne run ?_ (by rw [← same, ReadersStateCount.ofPacked_toPacked])
  cases site <;> simp_all [UpdateSite.mutator, UpdateSite.Counts]

/-! ## The list -/

/-- The message that an exchange publishes. -/
def SharedMessage.message (msg : SharedMessage) (size : Nat) : Message where
  sequence := msg.getSequenceState.nextSequence
  size := size
  bytes := msg.data.take size

/-- The points inside `update_reader_state`. -/
def Pc.Updating (pc : Pc) (site : UpdateSite) : Prop :=
  pc = .update site ∨ ∃ packed, pc = .cas site packed

/-- A party at a point of the program takes a step. -/
inductive Takes (msg : SharedMessage) : Pc → Act → Prop
  | invoke (operation : Operation) : Takes msg .idle (.goto operation.start)
  | finish (outcome : Outcome) : Takes msg (.done outcome) (.goto .idle)
  -- `start_write`
  | refuse (writer : Writer) (stopped : msg.isStopped = true) :
      Takes msg (.entryCheck writer) (.goto (.done .none))
  | enter (writer : Writer) (running : msg.isStopped = false) :
      Takes msg (.entryCheck writer) (.goto (.lock writer))
  | lock (writer : Writer) (free : msg.writerMutex = false) :
      Takes msg (.lock writer) ⟨.lock, .loadSequence writer, none⟩
  | loadSequence (writer : Writer) :
      Takes msg (.loadSequence writer) (.goto (.loadReaders writer msg.currentSequence))
  | loadReaders (writer : Writer) (currentSeq : BitVec 64)
      (target : 0 < msg.getReaderState.getTargetConsumed) (positive : 0 < currentSeq) :
      Takes msg (.loadReaders writer currentSeq) (.goto (.firstTicket writer msg.getReaderState))
  | loadReadersPass (writer : Writer) (currentSeq : BitVec 64)
      (free : ¬ (0 < msg.getReaderState.getTargetConsumed ∧ 0 < currentSeq)) :
      Takes msg (.loadReaders writer currentSeq) (.goto (.setWriting writer))
  | firstWait (writer : Writer) (readerState : ReadersStateCount)
      (pending : readerState.dataConsumed < readerState.getTargetConsumed) :
      Takes msg (.firstTicket writer readerState)
        (.goto (.backpressureStopped writer (msg.notified .readerDone)))
  | firstPass (writer : Writer) (readerState : ReadersStateCount)
      (consumed : ¬ readerState.dataConsumed < readerState.getTargetConsumed) :
      Takes msg (.firstTicket writer readerState) (.goto (.setWriting writer))
  | giveUp (writer : Writer) (ticket : Nat) (stopped : msg.isStopped = true) :
      Takes msg (.backpressureStopped writer ticket) (.goto (.unlock .none))
  | kick (writer : Writer) (ticket : Nat) (running : msg.isStopped = false) :
      Takes msg (.backpressureStopped writer ticket) (.goto (.notify (.kick writer ticket)))
  | nextTicket (writer : Writer) :
      Takes msg (.nextTicket writer) (.goto (.nextReaders writer (msg.notified .readerDone)))
  | nextWait (writer : Writer) (ticket : Nat)
      (pending : msg.getReaderState.dataConsumed < msg.getReaderState.getTargetConsumed) :
      Takes msg (.nextReaders writer ticket) (.goto (.backpressureStopped writer ticket))
  | nextPass (writer : Writer) (ticket : Nat)
      (consumed : ¬ msg.getReaderState.dataConsumed < msg.getReaderState.getTargetConsumed) :
      Takes msg (.nextReaders writer ticket) (.goto (.setWriting writer))
  | setWriting (writer : Writer) :
      Takes msg (.setWriting writer) ⟨.setWriting, .drainTicket writer, none⟩
  | drainTicket (writer : Writer) :
      Takes msg (.drainTicket writer) (.goto (.drainReaders writer (msg.notified .readerDone)))
  | drainBusy (writer : Writer) (ticket : Nat) (busy : 0 < msg.getReaderState.activeReaders) :
      Takes msg (.drainReaders writer ticket) (.goto (.drainStopped writer ticket))
  | drainedSlice (newData : List UInt8) (ticket : Nat)
      (none : msg.getReaderState.activeReaders = 0) (fits : newData.length ≤ msg.capacity) :
      Takes msg (.drainReaders (.slice newData) ticket) (.goto (.copy newData 0))
  | drainedLarge (newData : List UInt8) (ticket : Nat)
      (none : msg.getReaderState.activeReaders = 0) (large : msg.capacity < newData.length) :
      Takes msg (.drainReaders (.slice newData) ticket) (.goto (.abandon .panicked))
  | drainedGuard (ticket : Nat) (none : msg.getReaderState.activeReaders = 0) :
      Takes msg (.drainReaders .guard ticket) (.goto .writeGuard)
  | drainGiveUp (writer : Writer) (ticket : Nat) (stopped : msg.isStopped = true) :
      Takes msg (.drainStopped writer ticket) (.goto .clearWriting)
  | drainWait (writer : Writer) (ticket : Nat) (running : msg.isStopped = false) :
      Takes msg (.drainStopped writer ticket) (.goto (.wait (.drain writer) ticket maxSpins))
  | clearWriting : Takes msg .clearWriting ⟨.clearWriting, .unlock .none, none⟩
  -- the writing phase
  | copyByte (newData : List UInt8) (index : Nat) (bound : index < newData.length) :
      Takes msg (.copy newData index)
        ⟨.storeByte index newData[index], .copy newData (index + 1), none⟩
  | copied (newData : List UInt8) (index : Nat) (bound : newData.length ≤ index) :
      Takes msg (.copy newData index)
        ⟨.storeSize newData.length, .update (.resetConsumed newData.length), none⟩
  | store (index : Nat) (byte : UInt8) (bound : index < msg.capacity) :
      Takes msg .writeGuard ⟨.storeByte index byte, .writeGuard, none⟩
  | publish (size : Nat) (fits : size ≤ msg.capacity) :
      Takes msg .writeGuard ⟨.storeSize size, .update (.resetConsumed size), none⟩
  | refuseSize (size : Nat) (large : msg.capacity < size) :
      Takes msg .writeGuard ⟨.unlock, .done .none, none⟩
  | dropWrite : Takes msg .writeGuard ⟨.unlock, .done .unit, none⟩
  | abandon (outcome : Outcome) : Takes msg (.abandon outcome) ⟨.unlock, .done outcome, none⟩
  | loadPacked (size : Nat) :
      Takes msg (.loadPacked size) (.goto (.exchange size msg.sequenceAndFlags))
  | exchange (size : Nat) :
      Takes msg (.exchange size msg.sequenceAndFlags)
        ⟨.publish, .notify (.published msg.getSequenceState.nextSequence),
          some (.published (msg.message size))⟩
  | exchangeFails (size : Nat) (oldPacked : BitVec 64) :
      Takes msg (.exchange size oldPacked) (.goto (.exchange size msg.sequenceAndFlags))
  | unlock (outcome : Outcome) : Takes msg (.unlock outcome) ⟨.unlock, .done outcome, none⟩
  -- `read`
  | readTicket (lastSeenSeq : BitVec 64) (block : Bool) :
      Takes msg (.readTicket lastSeenSeq block)
        (.goto (.readState lastSeenSeq block (msg.notified .writer)))
  | readEnded (lastSeenSeq : BitVec 64) (block : Bool) (ticket : Nat)
      (stopped : msg.isStopped = true) (same : msg.currentSequence = lastSeenSeq) :
      Takes msg (.readState lastSeenSeq block ticket)
        ⟨.observe, .done .none, some (.ended lastSeenSeq)⟩
  | readNothing (lastSeenSeq : BitVec 64) (ticket : Nat)
      (running : msg.isStopped = false) (same : msg.currentSequence = lastSeenSeq) :
      Takes msg (.readState lastSeenSeq false ticket) (.goto (.done .none))
  | readWait (lastSeenSeq : BitVec 64) (block : Bool) (ticket : Nat)
      (reason : msg.isStopped = false ∧ msg.currentSequence = lastSeenSeq ∨
        msg.currentSequence ≠ lastSeenSeq ∧ msg.getSequenceState.writingInProgress = true) :
      Takes msg (.readState lastSeenSeq block ticket)
        (.goto (.wait (.reader lastSeenSeq block) ticket maxSpins))
  | readNew (lastSeenSeq : BitVec 64) (block : Bool) (ticket : Nat)
      (new : msg.currentSequence ≠ lastSeenSeq)
      (down : msg.getSequenceState.writingInProgress = false) :
      Takes msg (.readState lastSeenSeq block ticket)
        (.goto (.update (.register lastSeenSeq block msg.currentSequence)))
  | verifyFails (lastSeenSeq : BitVec 64) (block : Bool) (sequence : BitVec 64) :
      Takes msg (.verify lastSeenSeq block sequence) (.goto (.update (.unregister lastSeenSeq block)))
  | granted (lastSeenSeq : BitVec 64) (block : Bool) (sequence : BitVec 64)
      (down : msg.getSequenceState.writingInProgress = false)
      (same : msg.currentSequence = sequence) :
      Takes msg (.verify lastSeenSeq block sequence)
        ⟨.observe, .readGuard sequence, some (.admitted sequence)⟩
  | dropRead (sequence : BitVec 64) :
      Takes msg (.readGuard sequence) (.goto (.update (.release sequence)))
  -- `stop` and `set_target_read_count`
  | setStopped : Takes msg .setStopped ⟨.setStopped, .notify .stopReaders, none⟩
  | lockTarget (count : BitVec 16) (free : msg.writerMutex = false) :
      Takes msg (.lockTarget count) ⟨.lock, .update (.setTarget count), none⟩
  -- `wait` and `notify_all`
  | waitReturns (site : WaitSite) (ticket spins : Nat)
      (changed : (msg.condvar site.condvar).value ≠ SharedCondvar.word ticket) :
      Takes msg (.wait site ticket spins) (.goto site.resume)
  | spin (site : WaitSite) (ticket spins : Nat)
      (same : (msg.condvar site.condvar).value = SharedCondvar.word ticket) :
      Takes msg (.wait site ticket (spins + 1)) (.goto (.wait site ticket spins))
  | park (site : WaitSite) (ticket : Nat)
      (same : (msg.condvar site.condvar).value = SharedCondvar.word ticket) :
      Takes msg (.wait site ticket 0) (.goto (.parked site ticket))
  | wakeUp (site : WaitSite) (ticket : Nat) : Takes msg (.parked site ticket) (.goto site.resume)
  | notify (site : NotifySite) : Takes msg (.notify site) ⟨.notify site.condvar, .wake site, none⟩
  | wake (site : NotifySite) : Takes msg (.wake site) ⟨.wake site.condvar, site.after, none⟩
  -- `update_reader_state`
  | panic {pc : Pc} (site : UpdateSite) (at_ : pc.Updating site)
      (membership : site = .addReader ∨ site = .removeReader) :
      Takes msg pc (.goto (.done .panicked))
  | unchanged {pc : Pc} (size : Nat) (at_ : pc.Updating (.resetConsumed size))
      (same : msg.getReaderState.dataConsumed = 0) : Takes msg pc (.goto (.loadPacked size))
  | unchangedTarget {pc : Pc} (count : BitVec 16) (at_ : pc.Updating (.setTarget count))
      (same : msg.getReaderState.targetRead = count) : Takes msg pc (.goto (.unlock .unit))
  | compute {pc : Pc} (site : UpdateSite) (at_ : pc.Updating site) :
      Takes msg pc (.goto (.cas site msg.readersState))
  | update (site : UpdateSite) (policy : ReadersStateCount)
      (run : site.mutator.run msg.getReaderState = some policy) :
      Takes msg (.cas site msg.readersState) ⟨.mutate site.mutator, site.after policy, site.event⟩

/-! ## The program takes no other step -/

theorem takes_waitStep (msg : SharedMessage) (site : WaitSite) (ticket spins : Nat) :
    Takes msg (.wait site ticket spins) (waitStep msg site ticket spins) := by
  cases spins with
  | zero =>
      by_cases same : (msg.condvar site.condvar).value = SharedCondvar.word ticket
      · simpa [waitStep, same] using Takes.park site ticket same
      · simpa [waitStep, same] using Takes.waitReturns site ticket 0 same
  | succ spins =>
      by_cases same : (msg.condvar site.condvar).value = SharedCondvar.word ticket
      · simpa [waitStep, same] using Takes.spin site ticket spins same
      · simpa [waitStep, same] using Takes.waitReturns site ticket (spins + 1) same

theorem takes_acquired (msg : SharedMessage) (writer : Writer) (ticket : Nat)
    (none : msg.getReaderState.activeReaders = 0) :
    Takes msg (.drainReaders writer ticket) (.goto (acquired msg writer)) := by
  cases writer with
  | slice newData =>
      simp only [acquired]
      split
      · rename_i large
        exact .drainedLarge newData ticket none large
      · rename_i fits
        exact .drainedSlice newData ticket none (Nat.le_of_not_lt fits)
  | guard => exact .drainedGuard ticket none

theorem takes_attempt (msg : SharedMessage) {pc : Pc} (site : UpdateSite)
    (at_ : pc.Updating site) : Takes msg pc (attempt site msg.readersState) := by
  unfold attempt
  split
  · rename_i panic
    refine .panic site at_ ?_
    cases site <;> simp_all [UpdateSite.mutator, Mutator.run]
  · rename_i policy run
    split
    · rename_i same
      have kept : policy = msg.getReaderState := by
        rw [SharedMessage.getReaderState, ← same, ReadersStateCount.ofPacked_toPacked]
      cases site with
      | resetConsumed size =>
          cases run
          exact .unchanged size at_ (congrArg ReadersStateCount.dataConsumed kept).symm
      | setTarget count =>
          cases run
          exact .unchangedTarget count at_ (congrArg ReadersStateCount.targetRead kept).symm
      | _ => exact absurd same (UpdateSite.toPacked_ne (by trivial) run)
    · exact .compute site at_

theorem takes_casStep (msg : SharedMessage) (site : UpdateSite) (packed : BitVec 64)
    (spurious : Bool) : Takes msg (.cas site packed) (casStep msg site packed spurious) := by
  unfold casStep
  split
  · rename_i found
    obtain ⟨_, rfl⟩ := found
    split
    · rename_i panic
      refine .panic site (.inr ⟨_, rfl⟩) ?_
      cases site <;> simp_all [UpdateSite.mutator, Mutator.run]
    · rename_i policy run
      exact .update site policy run
  · exact takes_attempt msg site (.inr ⟨packed, rfl⟩)

theorem takes_readDecision (msg : SharedMessage) (lastSeenSeq : BitVec 64) (block : Bool)
    (ticket : Nat) :
    Takes msg (.readState lastSeenSeq block ticket)
      (readDecision msg.getSequenceState lastSeenSeq block ticket) := by
  unfold readDecision
  split
  · rename_i ended
    exact .readEnded lastSeenSeq block ticket ended.1 ended.2
  · rename_i running
    split
    · rename_i same
      have running : msg.isStopped = false := by
        simpa [same, SharedMessage.isStopped] using running
      split
      · exact .readWait lastSeenSeq block ticket (.inl ⟨running, same⟩)
      · rename_i noBlock
        rw [Bool.not_eq_true] at noBlock
        subst noBlock
        exact .readNothing lastSeenSeq ticket running same
    · rename_i new
      split
      · rename_i up
        exact .readWait lastSeenSeq block ticket (.inr ⟨new, up⟩)
      · rename_i down
        exact .readNew lastSeenSeq block ticket new (by simpa using down)

theorem takes_exchangeStep (msg : SharedMessage) (size : Nat) (oldPacked : BitVec 64)
    (spurious : Bool) :
    Takes msg (.exchange size oldPacked) (exchangeStep msg size oldPacked spurious) := by
  unfold exchangeStep
  split
  · rename_i found
    obtain ⟨_, rfl⟩ := found
    exact .exchange size
  · exact .exchangeFails size oldPacked

theorem takes_writeGuardStep {msg : SharedMessage} {choice : Choice} {act : Act}
    (step : writeGuardStep msg choice = some act) : Takes msg .writeGuard act := by
  cases choice with
  | store index byte =>
      simp only [writeGuardStep, Option.ite_none_right_eq_some] at step
      cases step.2
      exact .store index byte step.1
  | publish size =>
      simp only [writeGuardStep] at step
      split at step
      · rename_i large
        cases step
        exact .refuseSize size large
      · rename_i fits
        cases step
        exact .publish size (Nat.le_of_not_lt fits)
  | drop =>
      cases step
      exact .dropWrite
  | _ => contradiction

theorem takes_advance {msg : SharedMessage} {pc : Pc} {act : Act}
    (step : advance msg pc = some act) : Takes msg pc act := by
  cases pc with
  | done outcome =>
      cases step
      exact .finish outcome
  | entryCheck writer =>
      cases step
      cases stopped : msg.isStopped with
      | true => exact .refuse writer stopped
      | false => exact .enter writer stopped
  | lock writer =>
      simp only [advance] at step
      split at step
      · contradiction
      · rename_i free
        cases step
        exact .lock writer (by simpa using free)
  | loadSequence writer =>
      cases step
      exact .loadSequence writer
  | loadReaders writer currentSeq =>
      cases step
      split
      · rename_i wait
        exact .loadReaders writer currentSeq wait.1 wait.2
      · rename_i free
        exact .loadReadersPass writer currentSeq free
  | firstTicket writer readerState =>
      cases step
      unfold backpressure
      split
      · rename_i pending
        exact .firstWait writer readerState pending
      · rename_i consumed
        exact .firstPass writer readerState consumed
  | backpressureStopped writer ticket =>
      cases step
      cases stopped : msg.isStopped with
      | true => exact .giveUp writer ticket stopped
      | false => exact .kick writer ticket stopped
  | nextTicket writer =>
      cases step
      exact .nextTicket writer
  | nextReaders writer ticket =>
      cases step
      unfold backpressure
      split
      · rename_i pending
        exact .nextWait writer ticket pending
      · rename_i consumed
        exact .nextPass writer ticket consumed
  | setWriting writer =>
      cases step
      exact .setWriting writer
  | drainTicket writer =>
      cases step
      exact .drainTicket writer
  | drainReaders writer ticket =>
      cases step
      split
      · rename_i busy
        exact .drainBusy writer ticket busy
      · rename_i free
        exact takes_acquired msg writer ticket (by bv_omega)
  | drainStopped writer ticket =>
      cases step
      cases stopped : msg.isStopped with
      | true => exact .drainGiveUp writer ticket stopped
      | false => exact .drainWait writer ticket stopped
  | clearWriting =>
      cases step
      exact .clearWriting
  | copy newData index =>
      cases step
      split
      · rename_i bound
        exact .copyByte newData index bound
      · rename_i bound
        exact .copied newData index (Nat.le_of_not_lt bound)
  | abandon outcome =>
      cases step
      exact .abandon outcome
  | loadPacked size =>
      cases step
      exact .loadPacked size
  | exchange size oldPacked =>
      cases step
      exact takes_exchangeStep msg size oldPacked false
  | unlock outcome =>
      cases step
      exact .unlock outcome
  | readTicket lastSeenSeq block =>
      cases step
      exact .readTicket lastSeenSeq block
  | readState lastSeenSeq block ticket =>
      cases step
      exact takes_readDecision msg lastSeenSeq block ticket
  | verify lastSeenSeq block sequence =>
      cases step
      split
      · exact .verifyFails lastSeenSeq block sequence
      · rename_i unchanged
        exact .granted lastSeenSeq block sequence (by simpa using (not_or.mp unchanged).1)
          (not_not.mp (not_or.mp unchanged).2)
  | setStopped =>
      cases step
      exact .setStopped
  | lockTarget count =>
      simp only [advance] at step
      split at step
      · contradiction
      · rename_i free
        cases step
        exact .lockTarget count (by simpa using free)
  | wait site ticket spins =>
      cases step
      exact takes_waitStep msg site ticket spins
  | notify site =>
      cases step
      exact .notify site
  | wake site =>
      cases step
      exact .wake site
  | update site =>
      cases step
      exact takes_attempt msg site (.inl rfl)
  | cas site packed =>
      cases step
      exact takes_casStep msg site packed false
  | idle | writeGuard | readGuard sequence | parked site ticket => contradiction

/-- Every step of the program is on the list. -/
theorem next_takes {msg : SharedMessage} {choice : Choice} {pc : Pc} {act : Act}
    (step : next msg choice pc = some act) : Takes msg pc act := by
  unfold next at step
  split at step
  · exact takes_advance step
  · cases step
    exact .invoke _
  · cases step
    exact takes_casStep msg _ _ true
  · cases step
    exact takes_exchangeStep msg _ _ true
  · cases step
    exact .wakeUp _ _
  · cases step
    exact .dropRead _
  · exact takes_writeGuardStep step
  · contradiction

/-- An idle party calls an operation. -/
theorem next_idle {msg : SharedMessage} {choice : Choice} {act : Act}
    (step : next msg choice .idle = some act) :
    ∃ operation, choice = .invoke operation ∧ act = .goto operation.start := by
  cases choice with
  | invoke operation =>
      cases step
      exact ⟨operation, rfl, rfl⟩
  | _ => contradiction

/-- Only an idle party calls an operation. -/
theorem next_invoke {msg : SharedMessage} {operation : Operation} {pc : Pc} {act : Act}
    (step : next msg (.invoke operation) pc = some act) :
    pc = .idle ∧ act = .goto operation.start := by
  cases pc with
  | idle =>
      cases step
      exact ⟨rfl, rfl⟩
  | _ => contradiction

/-- Only a guard is dropped. -/
theorem next_drop {msg : SharedMessage} {pc : Pc} {act : Act}
    (step : next msg .drop pc = some act) :
    (∃ sequence, pc = .readGuard sequence ∧ act = .goto (.update (.release sequence))) ∨
      pc = .writeGuard ∧ act = ⟨.unlock, .done .unit, none⟩ := by
  cases pc with
  | readGuard sequence =>
      cases step
      exact .inl ⟨sequence, rfl, rfl⟩
  | writeGuard =>
      cases step
      exact .inr ⟨rfl, rfl⟩
  | _ => contradiction

/-- The give-up branch lowers the flag. -/
theorem next_clearWriting {msg : SharedMessage} {choice : Choice} {act : Act}
    (step : next msg choice .clearWriting = some act) :
    act = ⟨.clearWriting, .unlock .none, none⟩ := by
  cases choice with
  | go =>
      cases step
      rfl
  | _ => contradiction

end RsIpc
