import RsIpc.Protocol.Handshake
import RsIpc.SharedMessage.System
import RsIpc.SharedMessage.Takes

/-!
# The handshake in the program

Every point of the program lies in one phase of the handshake, and a step of
the program is one of the moves listed in `Move`.  What the
protocol preserves is derived from that list.
-/

namespace RsIpc

open Protocol.Handshake (Phase)

def WaitSite.phase : WaitSite → Phase
  | .backpressure _ => .holding
  | .drain _ => .flagged
  | .reader _ _ => .outside

def NotifySite.phase : NotifySite → Phase
  | .kick _ _ | .published _ => .holding
  | .released | .unregistered _ _ | .stopReaders | .stopWriters => .outside

/-- The phase in front of the update. -/
def UpdateSite.phase : UpdateSite → Phase
  | .register _ _ _ | .addReader | .removeReader => .outside
  | .unregister _ _ => .registered
  | .release _ => .admitted
  | .resetConsumed _ => .writing
  | .setTarget _ => .holding

/-- The phase of a program point.  A party writes from the load of
`start_write` that found no active reader up to the exchange of
`publish_write`, or up to the drop of its guard; a registration lasts from the
update that made it to the one that takes it back. -/
def Pc.phase : Pc → Phase
  | .idle | .done _ | .entryCheck _ | .lock _ => .outside
  | .loadSequence _ | .loadReaders _ _ | .firstTicket _ _ | .backpressureStopped _ _
  | .nextTicket _ | .nextReaders _ _ | .setWriting _ | .unlock _ => .holding
  | .drainTicket _ | .drainReaders _ _ | .drainStopped _ _ | .clearWriting => .flagged
  | .copy _ _ | .writeGuard | .abandon _ | .loadPacked _ | .exchange _ _ => .writing
  | .readTicket _ _ | .readState _ _ _ | .setStopped | .lockTarget _ => .outside
  | .verify _ _ _ => .registered
  | .readGuard _ => .admitted
  | .wait site _ _ | .parked site _ => site.phase
  | .notify site | .wake site => site.phase
  | .update site | .cas site _ => site.phase

/-- What a step does to the words and to the phase of the party that takes it. -/
inductive Move (msg : SharedMessage) (phase : Phase) (effect : Effect) (phase' : Phase) : Prop
  | observe (same : phase' = phase) (is : effect = .observe)
  | notify (which : Condvar) (same : phase' = phase) (is : effect = .notify which)
  | wake (which : Condvar) (same : phase' = phase) (is : effect = .wake which)
  | setStopped (same : phase' = phase) (is : effect = .setStopped)
  | lock (free : msg.writerMutex = false) (was : phase = .outside) (is : effect = .lock)
      (now : phase' = .holding)
  | setWriting (was : phase = .holding) (is : effect = .setWriting) (now : phase' = .flagged)
  | drained (none : msg.getReaderState.activeReaders = 0) (was : phase = .flagged)
      (is : effect = .observe) (now : phase' = .writing)
  | clearWriting (was : phase = .flagged) (is : effect = .clearWriting) (now : phase' = .holding)
  | storeByte (index : Nat) (byte : UInt8) (was : phase = .writing)
      (is : effect = .storeByte index byte) (now : phase' = .writing)
  | storeSize (size : Nat) (was : phase = .writing) (is : effect = .storeSize size)
      (now : phase' = .writing)
  | resetConsumed (was : phase = .writing) (is : effect = .mutate .resetConsumed)
      (now : phase' = .writing)
  | publish (was : phase = .writing) (is : effect = .publish) (now : phase' = .holding)
  | abandon (was : phase = .writing) (is : effect = .unlock) (now : phase' = .outside)
  | unlock (was : phase = .holding) (is : effect = .unlock) (now : phase' = .outside)
  | setTarget (count : BitVec 16) (was : phase = .holding) (is : effect = .mutate (.setTarget count))
      (now : phase' = .holding)
  | register (was : phase = .outside) (is : effect = .mutate .register)
      (now : phase' = .registered)
  | granted (down : msg.getSequenceState.writingInProgress = false) (was : phase = .registered)
      (is : effect = .observe) (now : phase' = .admitted)
  | unregister (was : phase = .registered) (is : effect = .mutate .unregister)
      (now : phase' = .outside)
  | release (was : phase = .admitted) (is : effect = .mutate .release) (now : phase' = .outside)
  | addReader (was : phase = .outside) (is : effect = .mutate .addReader) (now : phase' = .outside)
  | removeReader (was : phase = .outside) (is : effect = .mutate .removeReader)
      (now : phase' = .outside)

/-! ## The call sites -/

@[simp]
theorem WaitSite.phase_resume (site : WaitSite) : site.resume.phase = site.phase := by
  cases site <;> rfl

@[simp]
theorem NotifySite.phase_after (site : NotifySite) : site.after.phase = site.phase := by
  cases site <;> rfl

@[simp]
theorem Pc.phase_after (pc : Pc) (effect : Effect) : (pc.after effect).phase = pc.phase :=
  Pc.after_eq Pc.phase (fun site _ => site.phase_resume) pc effect

/-- What a step does, by the point it is taken at. -/
theorem Takes.move {msg : SharedMessage} {pc : Pc} {act : Act} (takes : Takes msg pc act) :
    Move msg pc.phase act.effect act.pc.phase := by
  cases takes with
  | lock writer free => exact .lock free rfl rfl rfl
  | lockTarget count free => exact .lock free rfl rfl rfl
  | setWriting writer => exact .setWriting rfl rfl rfl
  | drainedSlice newData ticket none fits => exact .drained none rfl rfl rfl
  | drainedLarge newData ticket none large => exact .drained none rfl rfl rfl
  | drainedGuard ticket none => exact .drained none rfl rfl rfl
  | clearWriting => exact .clearWriting rfl rfl rfl
  | copyByte newData index bound => exact .storeByte _ _ rfl rfl rfl
  | store index byte bound => exact .storeByte _ _ rfl rfl rfl
  | copied newData index bound => exact .storeSize _ rfl rfl rfl
  | publish size fits => exact .storeSize _ rfl rfl rfl
  | refuseSize size large => exact .abandon rfl rfl rfl
  | dropWrite => exact .abandon rfl rfl rfl
  | abandon outcome => exact .abandon rfl rfl rfl
  | exchange size => exact .publish rfl rfl rfl
  | unlock outcome => exact .unlock rfl rfl rfl
  | granted lastSeenSeq block sequence down same => exact .granted down rfl rfl rfl
  | setStopped => exact .setStopped rfl rfl
  | notify site => exact .notify site.condvar rfl rfl
  | wake site => exact .wake site.condvar site.phase_after rfl
  | waitReturns site ticket spins changed => exact .observe site.phase_resume rfl
  | wakeUp site ticket => exact .observe site.phase_resume rfl
  | invoke operation => cases operation <;> exact .observe rfl rfl
  | panic site at_ membership =>
      rcases at_ with rfl | ⟨packed, rfl⟩ <;> rcases membership with rfl | rfl <;>
        exact .observe rfl rfl
  | unchanged size at_ same => rcases at_ with rfl | ⟨packed, rfl⟩ <;> exact .observe rfl rfl
  | unchangedTarget count at_ same =>
      rcases at_ with rfl | ⟨packed, rfl⟩ <;> exact .observe rfl rfl
  | compute site at_ => rcases at_ with rfl | ⟨packed, rfl⟩ <;> exact .observe rfl rfl
  | update site policy run =>
      cases site with
      | register lastSeenSeq block sequence => exact .register rfl rfl rfl
      | unregister lastSeenSeq block => exact .unregister rfl rfl rfl
      | release sequence =>
          refine .release rfl rfl ?_
          simp only [UpdateSite.after]
          split <;> rfl
      | resetConsumed size => exact .resetConsumed rfl rfl rfl
      | setTarget count => exact .setTarget count rfl rfl rfl
      | addReader => exact .addReader rfl rfl rfl
      | removeReader => exact .removeReader rfl rfl rfl
  | _ => exact .observe rfl rfl

/-- Every step of the program is one of the moves. -/
theorem next_move {msg : SharedMessage} {choice : Choice} {pc : Pc} {act : Act}
    (step : next msg choice pc = some act) : Move msg pc.phase act.effect act.pc.phase :=
  (next_takes step).move

end RsIpc
