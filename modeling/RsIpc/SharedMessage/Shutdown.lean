import RsIpc.SharedMessage.LostWakeup
import RsIpc.SharedMessage.Rest
import RsIpc.SharedMessage.Sequencing
import RsIpc.SharedMessage.Settling
import RsIpc.SharedMessage.SleepingReader

/-!
# Stopping

A writer that waits reads its ticket before it looks at the stopped flag, so `stop`
leaves no writer asleep, whatever the target and the consumers.  Once no party can go
on, a call that has not returned waits for a write guard.
-/

namespace RsIpc

open Protocol.Handshake Transition

universe u

variable {ι : Type u} [DecidableEq ι] {targetRead consumers : BitVec 16}

/-- The writer has not seen the memory stopped, or somebody owes it a notification. -/
def State.Unstopped (state : State ι) (party : ι) : Prop :=
  ((state.pc party).resolved = true → state.msg.isStopped = false) ∨ state.Owed .readerDone

theorem unstopped_of_step {source target : State ι} {party other : ι} {choice : Choice}
    (step : source.step (party, choice) = some target)
    (same : target.msg.notified .readerDone = source.msg.notified .readerDone)
    (stays : (target.pc other).resolved = true → (source.pc other).resolved = true ∨
      source.msg.isStopped = false)
    (before : source.Unstopped other) : target.Unstopped other := by
  rcases before with running | owed
  · by_cases resolved : (target.pc other).resolved = true
    · have running : source.msg.isStopped = false := (stays resolved).elim running id
      cases stopped : target.msg.isStopped with
      | false => exact .inl fun _ => stopped
      | true =>
          right
          obtain ⟨act, next, rfl⟩ := State.step_eq_some_iff.mp step
          refine ⟨party, ?_⟩
          rw [State.perform_pc_self, (next_takes next).stops running stopped]
          rfl
    · exact .inl fun now => absurd now resolved
  · exact .inr (owed_of_step step owed same)

/-- A writer whose ticket is current has not seen the memory stopped, or is still owed
the notification. -/
theorem unstopped_of_awaiting {ok : StepCondition (State ι) (ι × Choice)} {state : State ι}
    (reachable : (system ι targetRead consumers).ReachableVia ok state) {party : ι}
    (awaiting : (state.pc party).awaiting = some (state.msg.notified .readerDone)) :
    state.Unstopped party := by
  refine reachable.invariant (fun state => ∀ party,
    (state.pc party).awaiting = some (state.msg.notified .readerDone) → state.Unstopped party)
    ?_ ?_ party awaiting
  · rintro _ ⟨capacity, rfl⟩ party awaiting
    cases awaiting
  · rintro source ⟨party, choice⟩ target before unstopped step _ other awaiting
    have same := notified_same_of_step before.reachable step (Pc.ticket_of_awaiting awaiting)
    by_cases here : other = party
    · subst here
      obtain ⟨act, next, is⟩ := State.step_eq_some_iff.mp step
      have self : target.pc other = act.pc := by
        rw [is, State.perform_pc_self]
      rw [self, same] at awaiting
      rcases (next_takes next).awaiting awaiting with ⟨waiting, resolved⟩ | ⟨unresolved, _⟩
      · apply unstopped_of_step step same _ (unstopped other waiting)
        rw [self]
        exact resolved
      · left
        rw [self, unresolved]
        exact fun now => nomatch now
    · have stays : target.pc other = source.pc other := by
        obtain ⟨act, next, rfl⟩ := State.step_eq_some_iff.mp step
        rw [State.perform_pc_of_ne source here] at awaiting ⊢
        exact Pc.after_self Pc.awaiting WaitSite.awaiting_resume awaiting
      rw [stays, same] at awaiting
      apply unstopped_of_step step same _ (unstopped other awaiting)
      rw [stays]
      exact .inl

/-! ## At rest after a stop -/

section Rest

variable {state : State ι}

omit [DecidableEq ι] in
theorem not_owed_of_rests (rests : ∀ party, (state.pc party).Rests state.msg) (which : Condvar) :
    ¬ state.Owed which := by
  rintro ⟨party, owes⟩
  rw [(rests party).owes] at owes
  cases owes

omit [DecidableEq ι] in
theorem not_waking_of_rests (rests : ∀ party, (state.pc party).Rests state.msg)
    (which : Condvar) : ¬ state.Waking which := by
  rintro ⟨party, waking⟩
  rw [(rests party).waking] at waking
  cases waking

variable (rests : ∀ party, (state.pc party).Rests state.msg)
  (reachable : (system ι targetRead consumers).ReachableVia Timely state)
include rests reachable

/-- Whoever sleeps at rest has a current ticket. -/
theorem current_of_rests {party : ι} {site : WaitSite} {ticket : Nat}
    (parked : state.pc party = .parked site ticket) : ticket = state.msg.notified site.condvar :=
  (current_or_waking reachable parked).resolve_right (not_waking_of_rests rests site.condvar)

theorem not_parked_writer (stopped : state.msg.isStopped = true) {party : ι} {site : WaitSite}
    {ticket : Nat} (writer : site.condvar = .readerDone) :
    state.pc party ≠ .parked site ticket := by
  intro parked
  have current := current_of_rests rests reachable parked
  rw [writer] at current
  have awaiting : (state.pc party).awaiting = some (state.msg.notified .readerDone) := by
    rw [parked, ← current]
    cases site with
    | reader lastSeenSeq block => cases writer
    | _ => rfl
  rcases unstopped_of_awaiting reachable awaiting with running | owed
  · rw [parked] at running
    exact absurd (stopped.symm.trans (running rfl)) (by decide)
  · exact not_owed_of_rests rests .readerDone owed

/-- After a stop whoever still holds the mutex has a write guard. -/
theorem writeGuard_of_holds (stopped : state.msg.isStopped = true) {party : ι}
    (holds : (state.pc party).phase.Holds) : state.pc party = .writeGuard := by
  have resting := rests party
  generalize here : state.pc party = pc at resting holds
  cases resting with
  | idle | lock writer taken | lockTarget count taken | readGuard sequence =>
      exact absurd holds (by simp [Pc.phase, Phase.Holds])
  | writeGuard => rfl
  | parked site ticket =>
      cases site with
      | reader lastSeenSeq block => exact absurd holds (by simp [Pc.phase, WaitSite.phase, Phase.Holds])
      | backpressure writer | drain writer =>
          exact absurd here (not_parked_writer rests reachable stopped rfl)

end Rest

/-- In a considerate run that is stopped, once no party can go on and no write guard is
left, every call has returned. -/
theorem returned_of_stopped {state : State ι}
    (reachable : (system ι targetRead consumers).ReachableVia Considerate state)
    (stopped : state.msg.isStopped = true)
    (rest : (system ι targetRead consumers).AtRest OwnStep state)
    (noGuard : ∀ party, state.pc party ≠ .writeGuard) (party : ι) :
    state.pc party = .idle ∨ ∃ sequence, state.pc party = .readGuard sequence := by
  have timely := reachable.mono fun fine => fine.2.1
  have rests : ∀ party, (state.pc party).Rests state.msg :=
    fun party => rests_of_step_eq_none (rest (party, .go) rfl)
  have free : ¬ ∃ holder, (state.pc holder).phase.Holds := by
    rintro ⟨holder, holds⟩
    exact noGuard holder (writeGuard_of_holds rests timely stopped holds)
  have unlocked : ¬ state.msg.writerMutex = true := by
    intro taken
    exact free ((owned_of_reachable reachable.reachable).held taken)
  have resting := rests party
  generalize here : state.pc party = pc at resting
  cases resting with
  | idle => exact .inl rfl
  | readGuard sequence => exact .inr ⟨sequence, rfl⟩
  | writeGuard => exact absurd here (noGuard party)
  | lock writer taken | lockTarget count taken => exact absurd taken unlocked
  | parked site ticket =>
      exfalso
      cases site with
      | backpressure writer | drain writer =>
          exact not_parked_writer rests timely stopped rfl here
      | reader lastSeenSeq block =>
          have current := current_of_rests rests timely here
          have reading : (state.pc party).reading = some (lastSeenSeq, ticket) := by
            rw [here]
            rfl
          rcases excused_of_reading (reachable.mono fun fine => fine.2.2) reading current with
            ⟨running, _⟩ | busy | owed
          · exact absurd (stopped.symm.trans running) (by decide)
          · obtain ⟨writer, raised⟩ := flag_raised_of_publishes
              (reachable.mono fun fine => fine.1) busy
            exact free ⟨writer, raised.holds⟩
          · exact not_owed_of_rests rests .writer owed

/-- After a stop the calls that are under way come to an end, in whatever order the
parties go on: if no new call begins, the run ends, and if every write guard is given
back it ends with every call returned. -/
theorem ends_returned_of_stopped [Fintype ι] {state : State ι}
    (reachable : (system ι targetRead consumers).ReachableVia Considerate state)
    (stopped : state.msg.isStopped = true) :
    (system ι targetRead consumers).Ends OwnStep Considerate (fun target =>
      (∀ party, target.pc party ≠ .writeGuard) → ∀ party,
        target.pc party = .idle ∨ ∃ sequence, target.pc party = .readGuard sequence) state := by
  refine (system_settles targetRead consumers).ends (fun state =>
    (system ι targetRead consumers).ReachableVia Considerate state ∧
      state.msg.isStopped = true) ?_ ?_ ⟨reachable, stopped⟩
  · rintro source label target ⟨reachable, stopped⟩ _ step considerate
    exact ⟨reachable.step step considerate, isStopped_of_step step stopped⟩
  · rintro target ⟨reachable, stopped⟩ rest noGuard party
    exact returned_of_stopped reachable stopped rest noGuard party

/-- A reader is about to wait for the first message, a writer to publish it, and a third
party has set the stopped flag. -/
def stopping : State (Fin 3) :=
  (zeroed (Fin 3)).finish (State.fresh (Fin 3) 1 0 0)
    (calls 0 (.read 0 true) 2 ++ calls 1 (.writeSlice [7]) 9 ++ calls 2 .stop 1) (by decide +kernel)

theorem stopping_ends : (zeroed (Fin 3)).Ends OwnStep Considerate (fun target =>
    (∀ party, target.pc party ≠ .writeGuard) → ∀ party,
      target.pc party = .idle ∨ ∃ sequence, target.pc party = .readGuard sequence) stopping :=
  ends_returned_of_stopped (System.reachableVia_finish (initial_fresh (Fin 3) 1 0 0) _
    (by decide +kernel)) (by decide +kernel)

end RsIpc
