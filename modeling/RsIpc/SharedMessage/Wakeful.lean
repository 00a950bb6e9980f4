import RsIpc.SharedMessage.Broadcast
import RsIpc.SharedMessage.LostWakeup
import RsIpc.SharedMessage.Within

/-!
# Writers that miss no notification

Registered consumers that read one message at a time never overflow the active count,
and a writer waits for the consumers only after something was published.
-/

namespace RsIpc

open Protocol Protocol.Handshake Transition

universe u

/-- The writer is between the two loads of `start_write` and the end of its backpressure
loop, and has found a message published. -/
def Pc.pressed : Pc → Bool
  | .loadReaders _ currentSeq => 0 < currentSeq
  | .firstTicket _ _ | .backpressureStopped _ _ | .nextTicket _ | .nextReaders _ _ => true
  | .notify (.kick _ _) | .wake (.kick _ _) => true
  | .wait (.backpressure _) _ _ | .parked (.backpressure _) _ => true
  | _ => false

theorem WaitSite.pressed_resume (site : WaitSite) (ticket : Nat) :
    site.resume.pressed = (Pc.parked site ticket).pressed := by
  cases site <;> rfl

theorem Takes.pressed {msg : SharedMessage} {pc : Pc} {act : Act} (takes : Takes msg pc act)
    (pressed : act.pc.pressed = true) :
    pc.pressed = true ∨ ∃ writer, pc = .loadSequence writer ∧ 0 < msg.currentSequence := by
  cases takes with
  | loadSequence writer => exact .inr ⟨writer, rfl, of_decide_eq_true pressed⟩
  | loadReaders writer currentSeq target positive => exact .inl (decide_eq_true positive)
  | firstWait writer readerState pending | kick writer ticket running | nextTicket writer
  | nextWait writer ticket pending => exact .inl rfl
  | notify site | wake site =>
      cases site with
      | kick writer ticket => exact .inl rfl
      | _ => cases pressed
  | spin site ticket spins same | park site ticket same =>
      cases site with
      | backpressure writer => exact .inl rfl
      | _ => cases pressed
  | waitReturns site ticket spins changed | wakeUp site ticket =>
      cases site with
      | backpressure writer => exact .inl rfl
      | _ => cases pressed
  | invoke operation => cases operation <;> cases pressed
  | update site policy run =>
      cases site with
      | release sequence =>
          simp only [UpdateSite.after] at pressed
          split at pressed <;> cases pressed
      | _ => cases pressed
  | _ => cases pressed

/-- Only the calls that write wait for readers. -/
theorem Pc.writes_of_awaiting {capacity : Nat} {operation : Operation} {pc : Pc} {ticket : Nat}
    (within : pc.Within capacity operation) (awaiting : pc.awaiting = some ticket) :
    operation.Writes := by
  have writes : ∀ writer : Writer, writer.operation = operation → operation.Writes := by
    rintro writer rfl
    cases writer <;> trivial
  cases pc with
  | backpressureStopped writer other | drainStopped writer other => exact writes writer within
  | notify site | wake site =>
      cases site with
      | kick writer other => exact writes writer within
      | _ => cases awaiting
  | wait site other spins | parked site other =>
      cases site with
      | backpressure writer | drain writer => exact writes writer within
      | reader lastSeenSeq block => cases awaiting
  | _ => cases awaiting

/-- A guard is kept until it is released. -/
theorem Takes.guard_or_released {msg : SharedMessage} {pc : Pc} {act : Act}
    (takes : Takes msg pc act) {sequence : BitVec 64} (guard : pc.guard = some sequence) :
    act.pc.guard = some sequence ∨ act.event = some (.released sequence) := by
  cases takes with
  | dropRead number => exact .inl guard
  | compute site at_ => exact .inl (at_.guard.symm.trans guard)
  | update site policy run =>
      cases site with
      | release number =>
          cases guard
          exact .inr rfl
      | _ => cases guard
  | panic site at_ membership =>
      rcases at_ with rfl | ⟨packed, rfl⟩ <;> rcases membership with rfl | rfl <;> cases guard
  | unchanged size at_ same => rcases at_ with rfl | ⟨packed, rfl⟩ <;> cases guard
  | unchangedTarget count at_ same => rcases at_ with rfl | ⟨packed, rfl⟩ <;> cases guard
  | _ => cases guard

variable {ι : Type u} [DecidableEq ι] {targetRead consumers : BitVec 16}

/-- A writer waits for the consumers of a message. -/
theorem published_of_pressed {ok : StepCondition (State ι) (ι × Choice)} {state : State ι}
    (reachable : (system ι targetRead consumers).ReachableVia ok state) {party : ι}
    (pressed : (state.pc party).pressed = true) : 0 < state.publishes := by
  refine reachable.invariant (fun state => ∀ party, (state.pc party).pressed = true →
    0 < state.publishes) ?_ ?_ party pressed
  · rintro _ ⟨capacity, rfl⟩ party pressed
    cases pressed
  · rintro source ⟨party, choice⟩ target before published step _ other pressed
    refine Nat.lt_of_lt_of_le ?_ (publishes_le_of_step step)
    obtain ⟨act, next, rfl⟩ := State.step_eq_some_iff.mp step
    rw [State.view_perform Pc.pressed WaitSite.pressed_resume] at pressed
    split at pressed
    · rename_i here
      rcases (next_takes next).pressed pressed with already | ⟨writer, _, positive⟩
      · exact published party already
      · by_contra none
        have zero := currentSequence_eq_numberAfter before.reachable
        rw [Nat.eq_zero_of_not_pos none, numberAfter_zero] at zero
        rw [BitVec.lt_def, zero] at positive
        exact absurd positive (by decide)
    · exact published other pressed

variable [Fintype ι] {initially : ι → Bool}

/-- A registering consumer is not among the active ones. -/
theorem noOverflow_of_disciplined
    (counted : consumers.toNat = count fun party => initially party = true) {state : State ι}
    (reachable : (system ι targetRead consumers).ReachableVia (Disciplined initially) state)
    (label : ι × Choice) (target : State ι) : NoOverflow state label target := by
  intro registering full
  obtain ⟨party, choice⟩ := label
  exfalso
  have mine : (state.pc party).member = some true ∧ ¬ (state.pc party).phase.Reads := by
    cases here : state.pc party with
    | cas site packed =>
        rw [here] at registering
        cases site with
        | register lastSeenSeq block sequence =>
            have outside : ¬ Phase.outside.Reads := by decide
            exact ⟨rfl, outside⟩
        | _ => cases registering
    | _ =>
        rw [here] at registering
        cases registering
  have enrolled := enrolled_of_member reachable mine.1
  have others : state.registrations ≤ count fun other => other ≠ party ∧
      History.enrolled initially state.log other = true :=
    count_le_of_imp fun other reads => ⟨fun same => mine.2 (same ▸ reads),
      enrolled_of_member reachable (Pc.member_of_reads reads)⟩
  have all : (count fun other => History.enrolled initially state.log other = true) =
      count (fun other => other ≠ party ∧ History.enrolled initially state.log other = true) +
        if History.enrolled initially state.log party = true then 1 else 0 :=
    count_eq_count_others_add party
  rw [← consumers_eq_count counted reachable, if_pos enrolled] at all
  have bound := state.msg.getReaderState.consumers.isLt
  have active := activeReaders_eq_registrations reachable.reachable
  rw [full] at active
  have few := congrArg BitVec.toNat active
  rw [BitVec.toNat_allOnes, BitVec.toNat_ofNat, Nat.mod_eq_of_lt (by omega)] at few
  omega

end RsIpc
