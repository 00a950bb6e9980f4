import RsIpc.Python.QueuedDelivery
import RsIpc.SharedMessage.Settling

/-!
# The stream comes to its end

A payload is published once, the memory is stopped once, and while neither happens a
reader thread that has the last message calls `read` once more and then sleeps.  So the
stream settles whenever nothing comes from outside, and where it does so without a stop
everything is delivered.
-/

namespace RsIpc

/-! ## Calls that publish -/

def WaitSite.unpublished : WaitSite → Nat
  | .backpressure _ | .drain _ => 1
  | .reader _ _ => 0

def UpdateSite.unpublished : UpdateSite → Nat
  | .resetConsumed _ => 1
  | _ => 0

/-- The message that the call may still publish. -/
def Pc.unpublished : Pc → Nat
  | .entryCheck _ | .lock _ | .loadSequence _ | .loadReaders _ _ | .firstTicket _ _
  | .backpressureStopped _ _ | .nextTicket _ | .nextReaders _ _ | .setWriting _ | .drainTicket _
  | .drainReaders _ _ | .drainStopped _ _ | .copy _ _ | .writeGuard | .loadPacked _
  | .exchange _ _ => 1
  | .notify (.kick _ _) | .wake (.kick _ _) => 1
  | .wait site _ _ | .parked site _ => site.unpublished
  | .update site | .cas site _ => site.unpublished
  | _ => 0

theorem WaitSite.unpublished_resume (site : WaitSite) (ticket : Nat) :
    site.resume.unpublished = (Pc.parked site ticket).unpublished := by
  cases site <;> rfl

theorem Takes.unpublished {msg : SharedMessage} {pc : Pc} {act : Act} (takes : Takes msg pc act)
    (busy : pc ≠ .idle) : act.pc.unpublished ≤ pc.unpublished := by
  cases takes with
  | invoke operation => exact absurd rfl busy
  | drainGiveUp writer ticket stopped | giveUp writer ticket stopped | refuse writer stopped =>
      exact Nat.zero_le _
  | waitReturns site ticket spins changed | wakeUp site ticket => cases site <;> exact le_rfl
  | spin site ticket spins same | park site ticket same => exact le_rfl
  | notify site | wake site => cases site <;> exact Nat.le_of_ble_eq_true rfl
  | panic site at_ membership => exact Nat.zero_le _
  | unchanged size at_ same => rcases at_ with rfl | ⟨packed, rfl⟩ <;> exact le_rfl
  | unchangedTarget count at_ same => exact Nat.zero_le _
  | compute site at_ => rcases at_ with rfl | ⟨packed, rfl⟩ <;> exact le_rfl
  | update site policy run =>
      cases site with
      | release sequence =>
          simp only [UpdateSite.after]
          split <;> exact le_rfl
      | _ => exact Nat.le_of_ble_eq_true rfl
  | _ => exact Nat.le_of_ble_eq_true rfl

/-- A publish uses up what the call may publish. -/
theorem Takes.unpublished_lt {msg : SharedMessage} {pc : Pc} {act : Act} (takes : Takes msg pc act)
    (moved : (act.effect.apply msg).currentSequence ≠ msg.currentSequence) :
    act.pc.unpublished < pc.unpublished := by
  rw [SharedMessage.currentSequence, Effect.getSequenceState_apply] at moved
  cases takes with
  | exchange size => exact Nat.zero_lt_one
  | _ => exact absurd rfl moved

/-! ## Calls of `read` -/

/-- Inside `read`, or with its guard in hand. -/
def Pc.reads : Pc → Bool
  | .readGuard _ => true
  | pc => pc.lastSeen.isSome

theorem WaitSite.reads_resume (site : WaitSite) (ticket : Nat) :
    site.resume.reads = (Pc.parked site ticket).reads := by
  cases site <;> rfl

theorem Takes.reads {msg : SharedMessage} {pc : Pc} {act : Act} (takes : Takes msg pc act)
    (busy : pc ≠ .idle) (reads : act.pc.reads = true) : pc.reads = true := by
  have seen : ∀ {pc : Pc} {seen : BitVec 64}, pc.lastSeen = some seen → pc.reads = true := by
    intro pc seen is
    cases pc <;> simp [Pc.reads, is]
  by_cases guard : ∃ sequence, act.pc = .readGuard sequence
  · obtain ⟨sequence, guard⟩ := guard
    cases takes with
    | granted lastSeenSeq block sequence down same => rfl
    | invoke operation => exact absurd rfl busy
    | waitReturns site ticket spins changed | wakeUp site ticket => cases site <;> cases guard
    | notify site | wake site => cases site <;> cases guard
    | update site policy run =>
        cases site with
        | release sequence =>
            simp only [UpdateSite.after] at guard
            split at guard <;> cases guard
        | _ => cases guard
    | _ => cases guard
  · obtain ⟨lastSeenSeq, is⟩ : ∃ lastSeenSeq, act.pc.lastSeen = some lastSeenSeq := by
      generalize act.pc = pc at guard reads
      cases pc with
      | readGuard sequence => exact absurd ⟨sequence, rfl⟩ guard
      | _ => exact Option.isSome_iff_exists.mp reads
    rcases takes.lastSeen is with already | ⟨idle, _⟩
    · exact seen already
    · exact absurd idle busy

/-- While the memory is neither stopped nor published to, the calls of a blocking
`read` that follow in a loop: none while one sleeps before the last message `cur`, one
after that message has been read, and two after another. -/
def Pc.rounds (cur last : BitVec 64) : Pc → Nat
  | .idle => if last = cur then 1 else 2
  | .readTicket seen true | .readState seen true _ | .wait (.reader seen true) _ _
  | .parked (.reader seen true) _ | .update (.unregister seen true)
  | .cas (.unregister seen true) _ | .notify (.unregistered seen true)
  | .wake (.unregistered seen true) => if seen = cur then 0 else 1
  | .update (.register seen true sequence) | .cas (.register seen true sequence) _
  | .verify seen true sequence => if sequence = cur ∨ seen ≠ cur then 1 else 0
  | .readGuard sequence => if sequence = cur then 1 else 2
  | _ => 2

theorem Pc.rounds_le_two (cur last : BitVec 64) (pc : Pc) : pc.rounds cur last ≤ 2 := by
  unfold rounds
  split
  all_goals first | exact le_rfl | (split <;> decide)

theorem WaitSite.rounds_resume (cur last : BitVec 64) (site : WaitSite) (ticket : Nat) :
    site.resume.rounds cur last = (Pc.parked site ticket).rounds cur last := by
  cases site with
  | reader lastSeenSeq block => cases block <;> rfl
  | _ => rfl

theorem Takes.rounds {msg : SharedMessage} {pc : Pc} {act : Act} (takes : Takes msg pc act)
    (busy : pc ≠ .idle) (inside : ∀ sequence, pc ≠ .readGuard sequence)
    (running : msg.isStopped = false) (last : BitVec 64) :
    act.pc.rounds msg.currentSequence last ≤ pc.rounds msg.currentSequence last := by
  have top : pc.rounds msg.currentSequence last = 2 →
      act.pc.rounds msg.currentSequence last ≤ pc.rounds msg.currentSequence last := by
    intro two
    rw [two]
    exact Pc.rounds_le_two _ _ _
  cases takes with
  | invoke operation => exact absurd rfl busy
  | dropRead sequence => exact absurd rfl (inside sequence)
  | readEnded seen block ticket stopped same => cases running.symm.trans stopped
  | readTicket seen block | readWait seen block ticket reason =>
      cases block with
      | false => exact top rfl
      | true => exact le_rfl
  | readNew seen block ticket new down =>
      cases block with
      | false => exact top rfl
      | true =>
          have other : seen ≠ msg.currentSequence := new.symm
          simp [Pc.rounds, other]
  | verifyFails seen block sequence =>
      cases block with
      | false => exact top rfl
      | true =>
          by_cases other : seen = msg.currentSequence
          · simp [Pc.rounds, other]
          · simp [Pc.rounds, other]
  | granted seen block sequence down same =>
      cases block with
      | false => exact top rfl
      | true => simp [Pc.rounds, same]
  | waitReturns site ticket spins changed | wakeUp site ticket
  | spin site ticket spins same | park site ticket same =>
      cases site with
      | reader seen block => cases block <;> exact le_rfl
      | _ => exact top rfl
  | notify site | wake site =>
      cases site with
      | unregistered seen block => cases block <;> exact le_rfl
      | _ => exact top rfl
  | panic site at_ membership =>
      apply top
      rcases membership with rfl | rfl <;> rcases at_ with rfl | ⟨packed, rfl⟩ <;> rfl
  | unchanged size at_ same | unchangedTarget count at_ same =>
      apply top
      rcases at_ with rfl | ⟨packed, rfl⟩ <;> rfl
  | compute site at_ =>
      cases site with
      | register seen block sequence | unregister seen block =>
          cases block <;> rcases at_ with rfl | ⟨packed, rfl⟩ <;> exact le_rfl
      | _ =>
          apply top
          rcases at_ with rfl | ⟨packed, rfl⟩ <;> rfl
  | update site policy run =>
      cases site with
      | register seen block sequence | unregister seen block => cases block <;> exact le_rfl
      | _ => exact top rfl
  | _ => exact top rfl

end RsIpc
