import RsIpc.SharedMessage.Takes
import RsIpc.SharedMessage.System
import RsIpc.Transition.Settling

/-!
# The memory settles

Every loop of the program goes round again only because of what somebody else did: an
exchange fails if the word has changed, a read is tried again if the sequence word has
changed, a wait returns if it was notified.  So there are levels.  Past a milestone of
its call a party never comes back; while the sequence word stays, a read is tried again
at most once, and notifies a writer at most once; while writers are not notified, the
backpressure loop kicks the readers at most once more; and while nobody is notified and
no word changes, a party soon sleeps.
-/

namespace RsIpc

open Transition

universe u

/-! ## Milestones -/

def WaitSite.milestones : WaitSite → Nat
  | .backpressure _ => 11
  | .drain _ => 9
  | .reader _ _ => 3

def UpdateSite.milestones : UpdateSite → Nat
  | .register _ _ _ | .unregister _ _ | .setTarget _ => 3
  | .release _ => 4
  | .resetConsumed _ => 7
  | .addReader | .removeReader => 2

/-- The milestones before the call is over. -/
def Pc.milestones : Pc → Nat
  | .idle => 0
  | .done _ => 1
  | .entryCheck _ => 16
  | .lock _ => 15
  | .loadSequence _ => 14
  | .loadReaders _ _ => 13
  | .firstTicket _ _ => 12
  | .backpressureStopped _ _ | .nextTicket _ | .nextReaders _ _ => 11
  | .setWriting _ => 10
  | .drainTicket _ | .drainReaders _ _ | .drainStopped _ _ => 9
  | .copy _ _ | .writeGuard => 8
  | .loadPacked _ => 6
  | .exchange _ _ => 5
  | .clearWriting => 3
  | .abandon _ | .unlock _ => 2
  | .readTicket _ _ | .readState _ _ _ | .verify _ _ _ => 3
  | .readGuard _ => 2
  | .setStopped => 6
  | .lockTarget _ => 4
  | .wait site _ _ | .parked site _ => site.milestones
  | .notify (.kick _ _) | .wake (.kick _ _) => 11
  | .notify (.published _) => 4
  | .wake (.published _) => 3
  | .notify .released => 3
  | .wake .released => 2
  | .notify (.unregistered _ _) | .wake (.unregistered _ _) => 3
  | .notify .stopReaders => 5
  | .wake .stopReaders => 4
  | .notify .stopWriters => 3
  | .wake .stopWriters => 2
  | .update site | .cas site _ => site.milestones

theorem WaitSite.milestones_resume (site : WaitSite) (ticket : Nat) :
    site.resume.milestones = (Pc.parked site ticket).milestones := by
  cases site <;> rfl

/-! ## Reads that are tried again -/

/-- A read that has taken this number registers in vain. -/
def SharedMessage.Moved (msg : SharedMessage) (sequence : BitVec 64) : Prop :=
  msg.getSequenceState.writingInProgress = true ∨ msg.currentSequence ≠ sequence

instance (msg : SharedMessage) (sequence : BitVec 64) : Decidable (msg.Moved sequence) :=
  inferInstanceAs (Decidable (_ ∨ _))

/-- What `read` may still do to the readers word and to sleeping writers, while the
sequence word stays. -/
def Pc.retries (msg : SharedMessage) : Pc → Nat
  | .readTicket _ _ | .readState _ _ _ => 1
  | .wait (.reader _ _) _ _ | .parked (.reader _ _) _ => 1
  | .update (.register _ _ sequence) | .cas (.register _ _ sequence) _ =>
      if msg.Moved sequence then 5 else 1
  | .verify _ _ sequence => if msg.Moved sequence then 4 else 0
  | .update (.unregister _ _) | .cas (.unregister _ _) _ => 4
  | .notify (.unregistered _ _) => 3
  | .wake (.unregistered _ _) => 2
  | _ => 0

theorem WaitSite.retries_resume (msg : SharedMessage) (site : WaitSite) (ticket : Nat) :
    site.resume.retries msg = (Pc.parked site ticket).retries msg := by
  cases site <;> rfl

/-! ## Kicks -/

/-- Writers were notified since the ticket was taken. -/
def SharedMessage.Stale (msg : SharedMessage) (which : Condvar) (ticket : Nat) : Prop :=
  (msg.condvar which).value ≠ SharedCondvar.word ticket

instance (msg : SharedMessage) (which : Condvar) (ticket : Nat) :
    Decidable (msg.Stale which ticket) :=
  inferInstanceAs (Decidable (_ ≠ _))

/-- What is left of a kick after this round of the backpressure loop. -/
def SharedMessage.again (msg : SharedMessage) (ticket : Nat) : Nat :=
  if msg.Stale .readerDone ticket then 2 else 0

/-- What the backpressure loop may still do to sleeping readers, while writers are not
notified. -/
def Pc.kicks (msg : SharedMessage) : Pc → Nat
  | .nextTicket _ => 2
  | .nextReaders _ ticket | .backpressureStopped _ ticket | .notify (.kick _ ticket) =>
      msg.again ticket + 2
  | .wake (.kick _ ticket) => msg.again ticket + 1
  | .wait (.backpressure _) ticket _ => msg.again ticket
  | _ => 0

/-! ## Steps on the way to sleep -/

/-- From the head of a loop to its wait. -/
def WaitSite.moves : WaitSite → Nat
  | .backpressure _ => 3
  | .drain _ => maxSpins + 4
  | .reader _ _ => maxSpins + 3

/-- A point of a loop with its ticket: some steps before the wait, or before the head of
the loop. -/
def SharedMessage.loop (msg : SharedMessage) (site : WaitSite) (ticket before : Nat) : Nat :=
  if msg.Stale site.condvar ticket then site.moves + before + 2 else before

/-- The steps that a party takes at most while no word changes. -/
def Pc.moves (msg : SharedMessage) : Pc → Nat
  | .backpressureStopped _ _ => 1
  | .nextReaders _ _ => 2
  | .nextTicket writer => (WaitSite.backpressure writer).moves
  | .drainTicket writer => (WaitSite.drain writer).moves
  | .drainReaders writer ticket => msg.loop (.drain writer) ticket (maxSpins + 3)
  | .drainStopped writer ticket => msg.loop (.drain writer) ticket (maxSpins + 2)
  | .readTicket lastSeenSeq block => (WaitSite.reader lastSeenSeq block).moves
  | .readState lastSeenSeq block ticket => msg.loop (.reader lastSeenSeq block) ticket (maxSpins + 2)
  | .verify _ _ _ => 2
  | .wait site ticket spins =>
      if msg.Stale site.condvar ticket then site.moves + 1 else spins + 1
  | .copy newData index => newData.length - index
  | .exchange _ oldPacked => if msg.sequenceAndFlags = oldPacked then 0 else 1
  | .update _ => 1
  | .cas _ packed => if msg.readersState = packed then 0 else 1
  | _ => 0

/-! ## What one step lowers -/

/-- A step that changes none of the words that the program looks at. -/
def Effect.Calm (effect : Effect) : Prop :=
  effect = .observe ∨ ∃ index byte, effect = .storeByte index byte

/-- A step goes down at one level, and leaves alone what the levels above it look at. -/
inductive Descends (msg : SharedMessage) (pc : Pc) (act : Act) : Prop
  | milestone (lower : act.pc.milestones < pc.milestones)
  | retry (milestones : act.pc.milestones ≤ pc.milestones)
      (word : (act.effect.apply msg).sequenceAndFlags = msg.sequenceAndFlags)
      (lower : act.pc.retries msg < pc.retries msg)
  | kick (milestones : act.pc.milestones ≤ pc.milestones)
      (retries : act.pc.retries msg ≤ pc.retries msg)
      (readers : act.effect = .notify .writer ∨ act.effect = .wake .writer)
      (lower : act.pc.kicks msg < pc.kicks msg)
  | move (milestones : act.pc.milestones ≤ pc.milestones)
      (retries : act.pc.retries msg ≤ pc.retries msg) (kicks : act.pc.kicks msg ≤ pc.kicks msg)
      (calm : act.effect.Calm)
      (lower : act.pc.moves msg < pc.moves msg)

theorem WaitSite.moves_resume (msg : SharedMessage) (site : WaitSite) :
    site.resume.moves msg = site.moves := by
  cases site <;> rfl

/-- A ticket that was just taken is current. -/
theorem SharedMessage.not_stale (msg : SharedMessage) (which : Condvar) :
    ¬ msg.Stale which (msg.notified which) :=
  fun stale => stale rfl

theorem milestones_acquired (msg : SharedMessage) (writer : Writer) :
    (acquired msg writer).milestones < 9 := by
  cases writer with
  | slice newData =>
      simp only [acquired]
      split <;> simp [Pc.milestones]
  | guard => simp [acquired, Pc.milestones]

/-- A wait that begins or goes on. -/
theorem moves_wait_lt_loop (msg : SharedMessage) (site : WaitSite) (ticket : Nat) :
    (Pc.wait site ticket maxSpins).moves msg < msg.loop site ticket (maxSpins + 2) := by
  simp only [Pc.moves, SharedMessage.loop]
  split <;> omega

theorem descends_of_waitStep (msg : SharedMessage) (site : WaitSite) (ticket spins : Nat) :
    Descends msg (.wait site ticket spins) (waitStep msg site ticket spins) := by
  have returns : msg.Stale site.condvar ticket →
      Descends msg (.wait site ticket spins) (.goto site.resume) := by
    intro stale
    refine .move (site.milestones_resume ticket).le ?_ ?_ (.inl rfl) ?_
    · cases site <;> exact le_rfl
    · cases site with
      | backpressure writer =>
          have two : (if msg.Stale .readerDone ticket then 2 else 0) = 2 := if_pos stale
          exact two.ge
      | _ => exact le_rfl
    · rw [site.moves_resume, Pc.moves, if_pos stale]
      exact Nat.lt_succ_self _
  have stays : ∀ {next : Pc}, ¬ msg.Stale site.condvar ticket → next.milestones = site.milestones →
      next.retries msg = (Pc.wait site ticket spins).retries msg → next.kicks msg = 0 →
        next.moves msg ≤ spins → Descends msg (.wait site ticket spins) (.goto next) := by
    intro next current milestones retries kicks moves
    refine .move milestones.le retries.le (kicks.le.trans (Nat.zero_le _)) (.inl rfl) ?_
    have wait : (Pc.wait site ticket spins).moves msg = spins + 1 := if_neg current
    rw [wait]
    exact Nat.lt_succ_of_le moves
  cases spins with
  | zero =>
      rw [waitStep]
      split
      · exact returns ‹_›
      · refine stays ‹_› rfl ?_ rfl le_rfl
        cases site <;> rfl
  | succ spins =>
      rw [waitStep]
      split
      · exact returns ‹_›
      · rename_i current
        refine stays current rfl ?_ ?_ ?_
        · cases site <;> rfl
        · cases site with
          | backpressure writer => exact if_neg current
          | _ => rfl
        · exact (if_neg current).le

/-- `update_reader_state` returns. -/
theorem descends_of_after {msg : SharedMessage} {pc : Pc} {site : UpdateSite}
    (at_ : pc.Updating site) {act : Act} {policy : ReadersStateCount}
    (after : act.pc = site.after policy)
    (word : (act.effect.apply msg).sequenceAndFlags = msg.sequenceAndFlags) :
    Descends msg pc act := by
  have milestones : pc.milestones = site.milestones := by
    rcases at_ with rfl | ⟨packed, rfl⟩ <;> rfl
  cases site with
  | register lastSeenSeq block sequence =>
      have retries : pc.retries msg = if msg.Moved sequence then 5 else 1 := by
        rcases at_ with rfl | ⟨packed, rfl⟩ <;> rfl
      refine .retry ?_ word ?_
      · rw [after, milestones]
        exact le_rfl
      · rw [after, retries]
        simp only [UpdateSite.after, Pc.retries]
        split <;> decide
  | unregister lastSeenSeq block =>
      have retries : pc.retries msg = 4 := by
        rcases at_ with rfl | ⟨packed, rfl⟩ <;> rfl
      refine .retry ?_ word ?_
      · rw [after, milestones]
        exact le_rfl
      · rw [after, retries]
        exact Nat.lt_succ_self 3
  | release sequence =>
      apply Descends.milestone
      rw [after, milestones]
      simp only [UpdateSite.after]
      split <;> simp [Pc.milestones, UpdateSite.milestones]
  | resetConsumed size | setTarget count | addReader | removeReader =>
      apply Descends.milestone
      rw [after, milestones]
      simp [UpdateSite.after, Pc.milestones, UpdateSite.milestones]

theorem descends_of_panic {msg : SharedMessage} {pc : Pc} {site : UpdateSite}
    (at_ : pc.Updating site) : Descends msg pc (.goto (.done .panicked)) := by
  apply Descends.milestone
  rcases at_ with rfl | ⟨packed, rfl⟩ <;> cases site <;> simp [Pc.milestones, UpdateSite.milestones]

/-- A round of `update_reader_state` that computes from the word as it is. -/
theorem descends_of_attempt {msg : SharedMessage} {pc : Pc} {site : UpdateSite}
    (at_ : pc.Updating site) (before : pc.moves msg = 1) :
    Descends msg pc (attempt site msg.readersState) := by
  unfold attempt
  split
  · exact descends_of_panic at_
  · split
    · exact descends_of_after at_ rfl rfl
    · refine .move ?_ ?_ (Nat.zero_le _) (.inl rfl) ?_
      · rcases at_ with rfl | ⟨packed, rfl⟩ <;> exact le_rfl
      · rcases at_ with rfl | ⟨packed, rfl⟩ <;> cases site <;> exact le_rfl
      · rw [before]
        simp [Pc.moves]

/-- `read` after it loaded the sequence word. -/
theorem descends_of_readDecision (msg : SharedMessage) (lastSeenSeq : BitVec 64) (block : Bool)
    (ticket : Nat) : Descends msg (.readState lastSeenSeq block ticket)
      (readDecision msg.getSequenceState lastSeenSeq block ticket) := by
  have waits : Descends msg (.readState lastSeenSeq block ticket)
      (.goto (.wait (.reader lastSeenSeq block) ticket maxSpins)) :=
    .move le_rfl le_rfl le_rfl (.inl rfl) (moves_wait_lt_loop msg (.reader lastSeenSeq block) ticket)
  unfold readDecision
  split
  · exact .milestone (by simp [Pc.milestones])
  · split
    · split
      · exact waits
      · exact .milestone (by simp [Pc.milestones])
    · split
      · exact waits
      · rename_i down
        have still : ¬ msg.Moved msg.getSequenceState.sequence := by
          rintro (up | changed)
          · exact down up
          · exact changed rfl
        refine .move le_rfl (if_neg still).le le_rfl (.inl rfl) ?_
        simp only [Pc.moves, SharedMessage.loop]
        split <;> omega

theorem descends_of_advance {msg : SharedMessage} {pc : Pc} {act : Act}
    (taken : advance msg pc = some act) : Descends msg pc act := by
  cases pc with
  | idle | writeGuard | readGuard | parked => cases taken
  | done outcome =>
      cases taken
      exact .milestone (by simp [Pc.milestones])
  | lock writer | lockTarget count =>
      simp only [advance, Option.ite_none_left_eq_some] at taken
      cases taken.2
      exact .milestone (by simp [Pc.milestones, UpdateSite.milestones])
  | loadSequence writer | setWriting writer | clearWriting | abandon outcome | unlock outcome
  | setStopped | loadPacked size =>
      cases taken
      exact .milestone (by simp [Pc.milestones])
  | entryCheck writer | loadReaders writer currentSeq =>
      cases taken
      apply Descends.milestone
      split <;> simp [Pc.milestones]
  | firstTicket writer readerState =>
      cases taken
      apply Descends.milestone
      unfold backpressure
      split <;> simp [Pc.milestones]
  | backpressureStopped writer ticket =>
      cases taken
      split
      · exact .milestone (by simp [Pc.milestones])
      · exact .move le_rfl le_rfl le_rfl (.inl rfl) Nat.zero_lt_one
  | nextTicket writer =>
      cases taken
      refine .move le_rfl le_rfl ?_ (.inl rfl) (Nat.lt_succ_self 2)
      simp [Pc.kicks, SharedMessage.again, SharedMessage.Stale, SharedCondvar.value,
        SharedMessage.notified]
  | nextReaders writer ticket =>
      cases taken
      unfold backpressure
      split
      · exact .move le_rfl le_rfl le_rfl (.inl rfl) (Nat.lt_succ_self 1)
      · exact .milestone (by simp [Pc.milestones])
  | drainTicket writer =>
      cases taken
      refine .move le_rfl le_rfl le_rfl (.inl rfl) ?_
      simp [Pc.moves, SharedMessage.loop, SharedMessage.Stale, SharedCondvar.value,
        SharedMessage.notified, WaitSite.moves, WaitSite.condvar]
  | drainReaders writer ticket =>
      cases taken
      split
      · refine .move le_rfl le_rfl le_rfl (.inl rfl) ?_
        simp only [Pc.moves, SharedMessage.loop]
        split <;> omega
      · exact .milestone (milestones_acquired msg writer)
  | drainStopped writer ticket =>
      cases taken
      split
      · exact .milestone (by simp [Pc.milestones])
      · refine .move le_rfl le_rfl le_rfl (.inl rfl) ?_
        simp only [Pc.moves, SharedMessage.loop]
        split <;> omega
  | copy newData index =>
      simp only [advance, Option.some.injEq] at taken
      subst taken
      split
      · refine .move le_rfl le_rfl le_rfl (.inr ⟨index, _, rfl⟩) ?_
        simp only [Pc.moves]
        omega
      · exact .milestone (by simp [Pc.milestones, UpdateSite.milestones])
  | exchange size oldPacked =>
      cases taken
      unfold exchangeStep
      split
      · exact .milestone (by simp [Pc.milestones])
      · rename_i lost
        refine .move le_rfl le_rfl le_rfl (.inl rfl) ?_
        have other : ¬ msg.sequenceAndFlags = oldPacked := fun same => lost ⟨rfl, same⟩
        simp [Pc.moves, other]
  | readTicket lastSeenSeq block =>
      cases taken
      refine .move le_rfl le_rfl le_rfl (.inl rfl) ?_
      simp [Pc.moves, SharedMessage.loop, SharedMessage.Stale, SharedCondvar.value,
        SharedMessage.notified, WaitSite.moves, WaitSite.condvar]
  | readState lastSeenSeq block ticket =>
      cases taken
      exact descends_of_readDecision msg lastSeenSeq block ticket
  | verify lastSeenSeq block sequence =>
      cases taken
      split
      · rename_i moved
        exact .move le_rfl (if_pos moved).ge le_rfl (.inl rfl) (Nat.lt_succ_self 1)
      · exact .milestone (by simp [Pc.milestones])
  | wait site ticket spins =>
      cases taken
      exact descends_of_waitStep msg site ticket spins
  | notify site =>
      cases taken
      cases site with
      | kick writer ticket => exact .kick le_rfl le_rfl (.inl rfl) (Nat.lt_succ_self _)
      | unregistered lastSeenSeq block => exact .retry le_rfl rfl (Nat.lt_succ_self 2)
      | _ => exact .milestone (by simp [Pc.milestones])
  | wake site =>
      cases taken
      cases site with
      | kick writer ticket => exact .kick le_rfl le_rfl (.inr rfl) (Nat.lt_succ_self _)
      | unregistered lastSeenSeq block => exact .retry le_rfl rfl (Nat.lt_succ_self 1)
      | _ => exact .milestone (by simp [Pc.milestones, NotifySite.after])
  | update site =>
      cases taken
      exact descends_of_attempt (.inl rfl) rfl
  | cas site packed =>
      cases taken
      have at_ : (Pc.cas site packed).Updating site := .inr ⟨packed, rfl⟩
      unfold casStep
      split
      · split
        · exact descends_of_panic at_
        · refine descends_of_after at_ rfl ?_
          simp only [Effect.apply]
          split <;> rfl
      · rename_i lost
        have other : ¬ msg.readersState = packed := fun same => lost ⟨rfl, same⟩
        exact descends_of_attempt at_ (if_neg other)

/-! ## The others -/

theorem Pc.retries_congr {msg other : SharedMessage}
    (word : other.sequenceAndFlags = msg.sequenceAndFlags) (pc : Pc) :
    pc.retries other = pc.retries msg := by
  have same : ∀ sequence, other.Moved sequence ↔ msg.Moved sequence := by
    intro sequence
    unfold SharedMessage.Moved SharedMessage.currentSequence SharedMessage.getSequenceState
    rw [word]
  cases pc with
  | verify lastSeenSeq block sequence => simp only [retries, same]
  | update site | cas site packed =>
      cases site with
      | register lastSeenSeq block sequence => simp only [retries, same]
      | _ => rfl
  | wait site ticket spins | parked site ticket => cases site <;> rfl
  | notify site | wake site => cases site <;> rfl
  | _ => rfl

theorem Pc.kicks_congr {msg other : SharedMessage}
    (same : other.condvar .readerDone = msg.condvar .readerDone) (pc : Pc) :
    pc.kicks other = pc.kicks msg := by
  have again : ∀ ticket, other.again ticket = msg.again ticket := by
    intro ticket
    have stale : other.Stale .readerDone ticket ↔ msg.Stale .readerDone ticket := by
      unfold SharedMessage.Stale
      rw [same]
    simp only [SharedMessage.again, stale]
  cases pc with
  | notify site | wake site => cases site <;> simp only [kicks, again]
  | wait site ticket spins => cases site <;> simp only [kicks, again]
  | _ => simp only [kicks, again]

/-- A writer that sleeps is not woken with the readers. -/
theorem Pc.kicks_after {effect : Effect}
    (readers : effect = .notify .writer ∨ effect = .wake .writer) (msg : SharedMessage) (pc : Pc) :
    (pc.after effect).kicks msg = pc.kicks msg := by
  rcases readers with rfl | rfl
  · rfl
  · cases pc with
    | parked site ticket => cases site <;> rfl
    | _ => rfl

theorem Effect.Calm.after {effect : Effect} (calm : effect.Calm) (pc : Pc) :
    pc.after effect = pc := by
  rcases calm with rfl | ⟨index, byte, rfl⟩ <;> rfl

theorem Effect.Calm.moves {effect : Effect} (calm : effect.Calm) (msg : SharedMessage) (pc : Pc) :
    pc.moves (effect.apply msg) = pc.moves msg := by
  rcases calm with rfl | ⟨index, byte, rfl⟩
  · rfl
  · have loop : ∀ site ticket before, ((Effect.storeByte index byte).apply msg).loop site ticket
        before = msg.loop site ticket before := by
      intro site ticket before
      cases site <;> rfl
    cases pc with
    | wait site ticket spins => cases site <;> rfl
    | drainReaders writer ticket | drainStopped writer ticket | readState lastSeenSeq block ticket =>
        simp only [Pc.moves, loop]
    | _ => rfl

theorem Effect.sequenceAndFlags_of_readers {effect : Effect} (msg : SharedMessage)
    (readers : effect = .notify .writer ∨ effect = .wake .writer) :
    (effect.apply msg).sequenceAndFlags = msg.sequenceAndFlags := by
  rcases readers with rfl | rfl <;> rfl

theorem Effect.Calm.sequenceAndFlags {effect : Effect} (calm : effect.Calm)
    (msg : SharedMessage) : (effect.apply msg).sequenceAndFlags = msg.sequenceAndFlags := by
  rcases calm with rfl | ⟨index, byte, rfl⟩ <;> rfl

theorem Effect.readerDone_of_readers {effect : Effect} (msg : SharedMessage)
    (readers : effect = .notify .writer ∨ effect = .wake .writer) :
    (effect.apply msg).condvar .readerDone = msg.condvar .readerDone := by
  rcases readers with rfl | rfl <;> rfl

theorem Effect.Calm.readerDone {effect : Effect} (calm : effect.Calm) (msg : SharedMessage) :
    (effect.apply msg).condvar .readerDone = msg.condvar .readerDone := by
  rcases calm with rfl | ⟨index, byte, rfl⟩ <;> rfl

/-! ## The whole -/

section Whole

variable {ι : Type u} [Fintype ι]

/-- What is left to do, at each level. -/
def State.rank (state : State ι) : Nat ×ₗ Nat ×ₗ Nat ×ₗ Nat :=
  toLex (∑ party, (state.pc party).milestones,
    toLex (∑ party, (state.pc party).retries state.msg,
      toLex (∑ party, (state.pc party).kicks state.msg,
        ∑ party, (state.pc party).moves state.msg)))

variable [DecidableEq ι]

omit [Fintype ι] in
theorem milestones_perform_le (state : State ι) {party other : ι} (act : Act)
    (ne : other ≠ party) :
    ((state.perform party act).pc other).milestones ≤ (state.pc other).milestones := by
  rw [State.perform_pc_of_ne state ne, Pc.after_eq Pc.milestones WaitSite.milestones_resume]

omit [Fintype ι] in
theorem retries_perform_le (state : State ι) {party other : ι} {act : Act}
    (word : (act.effect.apply state.msg).sequenceAndFlags = state.msg.sequenceAndFlags)
    (ne : other ≠ party) :
    ((state.perform party act).pc other).retries (act.effect.apply state.msg) ≤
      (state.pc other).retries state.msg := by
  rw [State.perform_pc_of_ne state ne, Pc.retries_congr word,
    Pc.after_eq (Pc.retries state.msg) (WaitSite.retries_resume state.msg)]

theorem rank_perform_lt (state : State ι) {party : ι} {act : Act}
    (descends : Descends state.msg (state.pc party) act) :
    (state.perform party act).rank < state.rank := by
  have self : (state.perform party act).pc party = act.pc := State.perform_pc_self state party act
  have sumMilestones : act.pc.milestones ≤ (state.pc party).milestones →
      ∑ other, ((state.perform party act).pc other).milestones ≤
        ∑ other, (state.pc other).milestones := by
    intro kept
    rw [← self] at kept
    exact sum_le_of_kept kept fun other ne => milestones_perform_le state act ne
  have sumRetries :
      (act.effect.apply state.msg).sequenceAndFlags = state.msg.sequenceAndFlags →
      act.pc.retries state.msg ≤ (state.pc party).retries state.msg →
      ∑ other, ((state.perform party act).pc other).retries (state.perform party act).msg ≤
        ∑ other, (state.pc other).retries state.msg := by
    intro word kept
    rw [← self, ← Pc.retries_congr word] at kept
    exact sum_le_of_kept kept fun other ne => retries_perform_le state word ne
  cases descends with
  | milestone lower =>
      apply level_lt_of_lt
      rw [← self] at lower
      exact sum_lt_of_lowered lower fun other ne => milestones_perform_le state act ne
  | retry milestones word lower =>
      apply level_lt_of_le (sumMilestones milestones)
      apply level_lt_of_lt
      rw [← self, ← Pc.retries_congr word] at lower
      exact sum_lt_of_lowered lower fun other ne => retries_perform_le state word ne
  | kick milestones retries readers lower =>
      have word := Effect.sequenceAndFlags_of_readers state.msg readers
      apply level_lt_of_le (sumMilestones milestones)
      apply level_lt_of_le (sumRetries word retries)
      apply level_lt_of_lt
      have same := Effect.readerDone_of_readers state.msg readers
      rw [← self, ← Pc.kicks_congr same] at lower
      apply sum_lt_of_lowered lower
      intro other ne
      rw [State.perform_pc_of_ne state ne, State.perform_msg, Pc.kicks_congr same,
        Pc.kicks_after readers]
  | move milestones retries kicks calm lower =>
      have word := calm.sequenceAndFlags state.msg
      have same := calm.readerDone state.msg
      apply level_lt_of_le (sumMilestones milestones)
      apply level_lt_of_le (sumRetries word retries)
      apply level_lt_of_le
      · rw [← self, ← Pc.kicks_congr same] at kicks
        apply sum_le_of_kept kicks
        intro other ne
        rw [State.perform_pc_of_ne state ne, State.perform_msg, Pc.kicks_congr same, calm.after]
      · rw [← self, ← calm.moves] at lower
        apply sum_lt_of_lowered lower
        intro other ne
        rw [State.perform_pc_of_ne state ne, State.perform_msg, calm.moves, calm.after]

/-- The steps that the program takes by itself, without spurious failures and wake-ups. -/
def OwnStep (label : ι × Choice) : Prop :=
  label.2 = .go

/-- Whatever the parties are doing, their calls come to an end or to rest: no loop of the
program goes on forever, and no two of them keep each other going. -/
theorem system_settles (targetRead consumers : BitVec 16) :
    (system ι targetRead consumers).Settles OwnStep := by
  refine System.Settles.of_rank State.rank ?_
  rintro source ⟨party, choice⟩ target rfl step
  obtain ⟨act, taken, rfl⟩ := State.step_eq_some_iff.mp step
  exact rank_perform_lt source (descends_of_advance taken)

end Whole

end RsIpc
