import RsIpc.SharedMessage.Exclusion
import RsIpc.SharedMessage.Waiting

/-!
# Sleeping writers

In the drain loop and in the later rounds of the backpressure loop a writer reads
its ticket first and looks at the readers word afterwards, so that whoever ends
its reason to wait in between makes the ticket stale.  In the first round of the
backpressure loop it looks first and reads the ticket afterwards.
-/

namespace RsIpc

open Protocol.Handshake Transition

universe u

/-- The ticket with which a writer waits, from the look at the readers word that
found a reason to. -/
def Pc.awaiting : Pc → Option Nat
  | .backpressureStopped _ ticket | .notify (.kick _ ticket) | .wake (.kick _ ticket)
  | .drainStopped _ ticket | .wait (.backpressure _) ticket _ | .wait (.drain _) ticket _
  | .parked (.backpressure _) ticket | .parked (.drain _) ticket => some ticket
  | _ => none

/-- The writer has also looked at the stopped flag. -/
def Pc.resolved : Pc → Bool
  | .backpressureStopped _ _ | .drainStopped _ _ => false
  | _ => true

/-- The readers word that the first round of the backpressure loop goes by. -/
def Pc.firstLook : Pc → Option ReadersStateCount
  | .firstTicket _ readerState => some readerState
  | _ => none

def Pc.registering : Pc → Bool
  | .cas (.register _ _ _) _ => true
  | _ => false

variable {ι : Type u}

/-- The registered consumers stay the same. -/
def SameConsumers : StepCondition (State ι) (ι × Choice) :=
  fun source _ target =>
    target.msg.getReaderState.consumers = source.msg.getReaderState.consumers

/-- Where the first round goes by a word that makes it wait, it would still wait,
or somebody owes it a notification, when it reads its ticket. -/
def FirstLookCurrent : StepCondition (State ι) (ι × Choice) :=
  fun source label _ => ∀ readerState ∈ (source.pc label.1).firstLook,
    readerState.dataConsumed < readerState.getTargetConsumed →
      source.msg.Pending ∨ source.Owed .readerDone

/-- No registration overflows the active count under a writer that waits for it. -/
def NoOverflow : StepCondition (State ι) (ι × Choice) :=
  fun source label _ => (source.pc label.1).registering = true →
    source.msg.getReaderState.activeReaders = BitVec.allOnes 16 →
      source.msg.getReaderState.dataConsumed < source.msg.getReaderState.getTargetConsumed

instance (source : State ι) (label : ι × Choice) (target : State ι) :
    Decidable (SameConsumers source label target) :=
  inferInstanceAs (Decidable (_ = _))

instance [Fintype ι] (source : State ι) (label : ι × Choice) (target : State ι) :
    Decidable (FirstLookCurrent source label target) :=
  Option.decidableForallMem _

instance (source : State ι) (label : ι × Choice) (target : State ι) :
    Decidable (NoOverflow source label target) :=
  inferInstanceAs (Decidable (_ → _ → _))

/-- The points of a writer that has found a reason to wait hold the mutex. -/
theorem Pc.holds_of_awaiting {pc : Pc} {ticket : Nat} (awaiting : pc.awaiting = some ticket) :
    pc.phase.Holds := by
  cases pc with
  | backpressureStopped writer other => exact .inl rfl
  | drainStopped writer other => exact .inr (.inl rfl)
  | notify site | wake site =>
      cases site with
      | kick writer other => exact .inl rfl
      | _ => cases awaiting
  | wait site other spins | parked site other =>
      cases site with
      | backpressure writer => exact .inl rfl
      | drain writer => exact .inr (.inl rfl)
      | reader lastSeenSeq block => cases awaiting
  | _ => cases awaiting

theorem Pc.ticket_of_awaiting {pc : Pc} {ticket : Nat} (awaiting : pc.awaiting = some ticket) :
    pc.ticket = some (.readerDone, ticket) := by
  cases pc with
  | backpressureStopped writer other | drainStopped writer other =>
      cases awaiting
      rfl
  | notify site | wake site | wait site other spins | parked site other =>
      cases site <;> cases awaiting
      all_goals rfl
  | _ => cases awaiting

/-- How a writer comes to wait, and to have looked at the stopped flag. -/
theorem Takes.awaiting {msg : SharedMessage} {pc : Pc} {act : Act} (takes : Takes msg pc act)
    {ticket : Nat} (awaiting : act.pc.awaiting = some ticket) :
    (pc.awaiting = some ticket ∧
        (act.pc.resolved = true → pc.resolved = true ∨ msg.isStopped = false)) ∨
      (act.pc.resolved = false ∧ (msg.Pending ∨ ∃ readerState,
        pc.firstLook = some readerState ∧
          readerState.dataConsumed < readerState.getTargetConsumed)) := by
  cases takes with
  | firstWait writer readerState pending =>
      exact .inr ⟨rfl, .inr ⟨readerState, rfl, pending⟩⟩
  | nextWait writer other pending => exact .inr ⟨rfl, .inl (.inl pending)⟩
  | drainBusy writer other busy => exact .inr ⟨rfl, .inl (.inr busy)⟩
  | kick writer other running | drainWait writer other running =>
      exact .inl ⟨awaiting, fun _ => .inr running⟩
  | spin site other spins same | park site other same =>
      left
      cases site with
      | reader lastSeenSeq block => cases awaiting
      | _ => exact ⟨awaiting, fun _ => .inl rfl⟩
  | notify site =>
      cases site with
      | kick writer other => exact .inl ⟨awaiting, fun _ => .inl rfl⟩
      | _ => cases awaiting
  | wake site =>
      cases site with
      | kick writer other => exact .inl ⟨awaiting, fun _ => .inl rfl⟩
      | _ => cases awaiting
  | invoke operation => cases operation <;> cases awaiting
  | waitReturns site other spins changed | wakeUp site other => cases site <;> cases awaiting
  | update site policy run =>
      cases site with
      | release sequence =>
          simp only [UpdateSite.after] at awaiting
          split at awaiting <;> cases awaiting
      | _ => cases awaiting
  | _ => cases awaiting

/-- A step on which a writer goes on waiting leaves its reasons alone. -/
theorem Takes.same_of_awaiting {msg : SharedMessage} {pc : Pc} {act : Act}
    (takes : Takes msg pc act) {ticket : Nat} (awaiting : act.pc.awaiting = some ticket) :
    (act.effect.apply msg).Pending = msg.Pending ∧
      (act.effect.apply msg).isStopped = msg.isStopped := by
  cases takes with
  | notify site =>
      rw [SharedMessage.Pending, SharedMessage.isStopped, Effect.getReaderState_apply,
        Effect.getSequenceState_apply]
      exact ⟨rfl, rfl⟩
  | update site policy run =>
      cases site with
      | release sequence =>
          simp only [UpdateSite.after] at awaiting
          split at awaiting <;> cases awaiting
      | _ => cases awaiting
  | _ => first | exact ⟨rfl, rfl⟩ | cases awaiting

theorem WaitSite.awaiting_resume (site : WaitSite) : site.resume.awaiting = none := by
  cases site <;> rfl

/-! ## Waiting with a reason -/

/-- A waiting writer has a reason, or somebody owes it a notification. -/
def State.Justified (state : State ι) (party : ι) : Prop :=
  (state.msg.Pending ∧ ((state.pc party).resolved = true → state.msg.isStopped = false)) ∨
    state.Owed .readerDone

/-- The runs in which writers do not miss a notification. -/
def Attentive : StepCondition (State ι) (ι × Choice) :=
  fun source label target => SameConsumers source label target ∧ Timely source label target ∧
    FirstLookCurrent source label target ∧ NoOverflow source label target

instance [Fintype ι] (source : State ι) (label : ι × Choice) (target : State ι) :
    Decidable (Attentive source label target) :=
  inferInstanceAs (Decidable (_ ∧ _ ∧ _ ∧ _))

variable [DecidableEq ι] {targetRead consumers : BitVec 16}

section Steps

variable {source target : State ι} {party : ι} {choice : Choice}

/-- The writer's own steps. -/
theorem justified_of_own_step (step : source.step (party, choice) = some target)
    (attentive : Attentive source (party, choice) target)
    (same : target.msg.notified .readerDone = source.msg.notified .readerDone) {ticket : Nat}
    (awaiting : (target.pc party).awaiting = some ticket)
    (before : (source.pc party).awaiting = some ticket → source.Justified party) :
    target.Justified party := by
  have owed : source.Owed .readerDone → target.Justified party :=
    fun owed => .inr (owed_of_step step owed same)
  have look := attentive.2.2.1
  obtain ⟨act, next, rfl⟩ := State.step_eq_some_iff.mp step
  rw [State.perform_pc_self] at awaiting
  have takes := next_takes next
  obtain ⟨pendingSame, stoppedSame⟩ := takes.same_of_awaiting awaiting
  have reason : source.msg.Pending → (act.pc.resolved = true → source.msg.isStopped = false) →
      (source.perform party act).Justified party := by
    intro pending running
    left
    rw [State.perform_msg, State.perform_pc_self, pendingSame, stoppedSame]
    exact ⟨pending, running⟩
  rcases takes.awaiting awaiting with ⟨waiting, resolved⟩ | ⟨unresolved, pending | ⟨readerState, at_, goes⟩⟩
  · rcases before waiting with ⟨pending, running⟩ | debt
    · refine reason pending fun now => ?_
      rcases resolved now with already | looked
      · exact running already
      · exact looked
    · exact owed debt
  · exact reason pending fun now => absurd (now.symm.trans unresolved) (by decide)
  · rcases look readerState at_ goes with pending | debt
    · exact reason pending fun now => absurd (now.symm.trans unresolved) (by decide)
    · exact owed debt

/-- The steps of everybody else. -/
theorem justified_of_other_step (reachable : (system ι targetRead consumers).Reachable source)
    (step : source.step (party, choice) = some target)
    (attentive : Attentive source (party, choice) target)
    (same : target.msg.notified .readerDone = source.msg.notified .readerDone) {other : ι}
    (ne : other ≠ party) (stays : target.pc other = source.pc other) {ticket : Nat}
    (awaiting : (source.pc other).awaiting = some ticket) (before : source.Justified other) :
    target.Justified other := by
  rcases before with ⟨pending, running⟩ | debt
  · obtain ⟨consumersSame, _, _, room⟩ := attentive
    obtain ⟨act, next, rfl⟩ := State.step_eq_some_iff.mp step
    have takes := next_takes next
    have debt : act.pc.owes .readerDone = true → (source.perform party act).Justified other := by
      intro owes
      exact .inr ⟨party, by rwa [State.perform_pc_self]⟩
    by_cases still : (act.effect.apply source.msg).Pending
    · by_cases resolved : (source.pc other).resolved = true
      · cases stopped : (act.effect.apply source.msg).isStopped with
        | false => exact .inl ⟨still, fun _ => stopped⟩
        | true =>
            refine debt ?_
            rw [takes.stops (running resolved) stopped]
            rfl
      · exact .inl ⟨still, fun now => absurd (stays ▸ now) resolved⟩
    · cases takes.settles pending still with
      | owes owes => exact debt owes
      | holder holds =>
          have owned := owned_of_reachable reachable
          exact absurd (owned.unique (Pc.holds_of_awaiting awaiting) holds) ne
      | overflow lastSeenSeq block sequence at_ full consumed =>
          exact absurd (room (by rw [at_]; rfl) full) consumed
      | departure at_ one fewer => exact absurd consumersSame fewer
  · exact .inr (owed_of_step step debt same)

end Steps

/-- In an attentive run a waiting writer whose ticket is current has a reason to
wait, or somebody owes it a notification. -/
theorem justified_of_awaiting {state : State ι}
    (reachable : (system ι targetRead consumers).ReachableVia Attentive state) {party : ι}
    {ticket : Nat} (awaiting : (state.pc party).awaiting = some ticket)
    (current : ticket = state.msg.notified .readerDone) : state.Justified party := by
  refine reachable.invariant (fun state => ∀ party ticket,
    (state.pc party).awaiting = some ticket → ticket = state.msg.notified .readerDone →
      state.Justified party) ?_ ?_ party ticket awaiting current
  · rintro _ ⟨capacity, rfl⟩ party ticket awaiting
    cases awaiting
  · rintro source ⟨party, choice⟩ target before justified step attentive other ticket awaiting
      rfl
    have same := notified_same_of_step before.reachable step (Pc.ticket_of_awaiting awaiting)
    by_cases here : other = party
    · subst here
      exact justified_of_own_step step attentive same awaiting
        fun waiting => justified other _ waiting same
    · have stays : target.pc other = source.pc other := by
        obtain ⟨act, next, rfl⟩ := State.step_eq_some_iff.mp step
        rw [State.perform_pc_of_ne source here] at awaiting ⊢
        exact Pc.after_self Pc.awaiting WaitSite.awaiting_resume awaiting
      rw [stays] at awaiting
      exact justified_of_other_step before.reachable step attentive same here stays awaiting
        (justified other _ awaiting same)

/-- In an attentive run a writer sleeps only while it has to wait: if its ticket is
current, or nobody is inside `notify_all`, and nobody owes it a notification, the
memory is not stopped and the readers word gives it a reason. -/
theorem sleeping_writer_must_wait {state : State ι}
    (reachable : (system ι targetRead consumers).ReachableVia Attentive state) {party : ι}
    {site : WaitSite} {ticket : Nat} (parked : state.pc party = .parked site ticket)
    (writer : site.condvar = .readerDone)
    (current : ticket = state.msg.notified .readerDone ∨ ¬ state.Waking .readerDone)
    (settled : ¬ state.Owed .readerDone) : state.msg.MustWait := by
  have current : ticket = state.msg.notified .readerDone := by
    rcases current with now | asleep
    · exact now
    · have timely := current_or_waking (reachable.mono fun attentive => attentive.2.1) parked
      rw [writer] at timely
      exact timely.resolve_right asleep
  have awaiting : (state.pc party).awaiting = some ticket := by
    rw [parked]
    cases site with
    | reader lastSeenSeq block => cases writer
    | _ => rfl
  rcases justified_of_awaiting reachable awaiting current with ⟨pending, running⟩ | owed
  · exact ⟨running (by rw [parked]; rfl), pending⟩
  · exact absurd owed settled

/-- A spin phase changes nothing that attentive runs look at. -/
theorem attentive_spin {state : State ι} {party : ι} {site : WaitSite} {ticket : Nat}
    (close : state.msg.notified site.condvar < ticket + 2 ^ 32) (spins : Nat) (next : Pc) :
    Attentive (state.perform party (.goto (.wait site ticket spins))) (party, .go)
      (state.perform party (.goto next)) := by
  refine ⟨rfl, timely_spin close spins, ?_, ?_⟩
  · intro readerState look
    rw [State.perform_pc_self] at look
    cases look
  · intro registering
    rw [State.perform_pc_self] at registering
    cases registering

/-- One consumer is registered, and a writer is about to wait for it to read. -/
def patientWriter : State (Fin 2) :=
  (system (Fin 2) 65535 1).finish (State.fresh (Fin 2) 4 65535 1)
    (calls 0 (.writeSlice [7]) 16 ++ calls 0 .write 8) (by decide +kernel)

theorem patientWriter_must_wait :
    (patientWriter.perform 0 (.goto (.parked (.backpressure .guard) 0))).msg.MustWait := by
  have reachable := reachableVia_parked (System.reachableVia_finish
      (initial_fresh (Fin 2) 4 65535 1) _ (by decide +kernel))
    (by decide +kernel : patientWriter.pc 0 = .wait (.backpressure .guard) 0 1000)
    (by decide +kernel) (attentive_spin (by decide +kernel))
  exact sleeping_writer_must_wait reachable (State.perform_pc_self _ _ _) rfl
    (.inl (by decide +kernel)) (by decide +kernel)

/-- The reader releases its guard between the writer's look at the readers word
and its reading of the ticket; the writer is about to sleep. -/
def hastyWriter : State (Fin 2) :=
  (system (Fin 2) 1 1).finish (State.fresh (Fin 2) 4 1 1)
    (calls 0 (.writeSlice [7]) 16 ++ calls 1 (.read 0 true) 5 ++ calls 0 .write 4 ++
      (1, .drop) :: advances 1 5 ++ advances 0 4) (by decide +kernel)

/-- The writer sleeps. -/
def lostWakeup : State (Fin 2) :=
  hastyWriter.perform 0 (.goto (.parked (.backpressure .guard) 1))

/-- The ticket is current, everybody else is idle, and the writer need not wait. -/
theorem lostWakeup_sleeps :
    (system (Fin 2) 1 1).ReachableVia
        (fun source label target => SameConsumers source label target ∧ Timely source label target)
        lostWakeup ∧
      lostWakeup.pc 0 = .parked (.backpressure .guard) 1 ∧
      lostWakeup.msg.notified .readerDone = 1 ∧ lostWakeup.pc 1 = .idle ∧
      ¬ lostWakeup.msg.MustWait :=
  ⟨reachableVia_parked (System.reachableVia_finish (initial_fresh (Fin 2) 4 1 1) _
      (by decide +kernel))
    (by decide +kernel : hastyWriter.pc 0 = .wait (.backpressure .guard) 1 1000)
    (by decide +kernel) (fun spins _ => ⟨rfl, timely_spin (by decide +kernel) spins⟩),
    by decide +kernel⟩

end RsIpc
