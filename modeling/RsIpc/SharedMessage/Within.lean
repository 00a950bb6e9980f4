import RsIpc.SharedMessage.System
import RsIpc.SharedMessage.Takes

/-!
# The points of a call

Every operation runs through its own points of the program, from its start to
the outcome it returns with.
-/

namespace RsIpc

universe u

/-- The operation that a writer was called from. -/
def Writer.operation : Writer → Operation
  | .slice newData => .writeSlice newData
  | .guard => .write

namespace Operation

def Writes : Operation → Prop
  | .writeSlice _ | .write => True
  | _ => False

def Reads : Operation → Prop
  | .read _ _ => True
  | _ => False

/-- The operations that take the writer mutex. -/
def Locks : Operation → Prop
  | .writeSlice _ | .write | .setTargetReadCount _ => True
  | _ => False

/-- The operation may publish a message of this size. -/
def MayPublish (size : Nat) : Operation → Prop
  | .writeSlice newData => newData.length = size
  | .write => True
  | _ => False

/-- The operation may end with the outcome, over a buffer of this capacity. -/
def Returns (capacity : Nat) : Operation → Outcome → Prop
  | .writeSlice newData, .panicked => capacity < newData.length
  | .writeSlice _, .none | .writeSlice _, .sequence _ => True
  | .write, .none | .write, .unit | .write, .sequence _ => True
  | .read _ _, .none | .read _ _, .unit => True
  | .stop, .unit | .setTargetReadCount _, .unit => True
  | .addReader, .unit | .addReader, .panicked => True
  | .removeReader, .unit | .removeReader, .panicked => True
  | _, _ => False

end Operation

def WaitSite.operation : WaitSite → Operation
  | .backpressure writer | .drain writer => writer.operation
  | .reader lastSeenSeq block => .read lastSeenSeq block

def NotifySite.Within (operation : Operation) : NotifySite → Prop
  | .kick writer _ => writer.operation = operation
  | .published _ => operation.Writes
  | .released => operation.Reads
  | .unregistered lastSeenSeq block => .read lastSeenSeq block = operation
  | .stopReaders | .stopWriters => .stop = operation

def UpdateSite.Within (operation : Operation) : UpdateSite → Prop
  | .register lastSeenSeq block _ | .unregister lastSeenSeq block =>
      .read lastSeenSeq block = operation
  | .release _ => operation.Reads
  | .resetConsumed size => operation.MayPublish size
  | .setTarget count => .setTargetReadCount count = operation
  | .addReader => .addReader = operation
  | .removeReader => .removeReader = operation

/-- The point lies in a call of the operation. -/
def Pc.Within (capacity : Nat) (operation : Operation) : Pc → Prop
  | .idle => False
  | .done outcome => operation.Returns capacity outcome
  | .entryCheck writer | .lock writer | .loadSequence writer | .loadReaders writer _
  | .firstTicket writer _ | .backpressureStopped writer _ | .nextTicket writer
  | .nextReaders writer _ | .setWriting writer | .drainTicket writer | .drainReaders writer _
  | .drainStopped writer _ => writer.operation = operation
  | .clearWriting => operation.Writes
  | .copy newData _ => .writeSlice newData = operation ∧ newData.length ≤ capacity
  | .writeGuard => .write = operation
  | .abandon outcome => outcome = .panicked ∧
      ∃ newData, .writeSlice newData = operation ∧ capacity < newData.length
  | .loadPacked size | .exchange size _ => operation.MayPublish size
  | .unlock outcome => operation.Locks ∧ operation.Returns capacity outcome
  | .readTicket lastSeenSeq block | .readState lastSeenSeq block _
  | .verify lastSeenSeq block _ => .read lastSeenSeq block = operation
  | .readGuard _ => operation.Reads
  | .setStopped => .stop = operation
  | .lockTarget count => .setTargetReadCount count = operation
  | .wait site _ _ | .parked site _ => site.operation = operation
  | .notify site | .wake site => site.Within operation
  | .update site | .cas site _ => site.Within operation

theorem WaitSite.within_resume (capacity : Nat) (operation : Operation) (site : WaitSite)
    (ticket : Nat) : site.resume.Within capacity operation =
      (Pc.parked site ticket).Within capacity operation := by
  cases site <;> rfl

theorem Pc.Updating.within {pc : Pc} {site : UpdateSite} (at_ : pc.Updating site)
    (capacity : Nat) (operation : Operation) :
    pc.Within capacity operation = site.Within operation := by
  rcases at_ with rfl | ⟨packed, rfl⟩ <;> rfl

theorem Operation.within_start (capacity : Nat) (operation : Operation) :
    operation.start.Within capacity operation := by
  cases operation <;> rfl

theorem Writer.writes {operation : Operation} {writer : Writer}
    (is : writer.operation = operation) : operation.Writes := by
  subst is
  cases writer <;> trivial

theorem Operation.MayPublish.writes {operation : Operation} {size : Nat}
    (publishes : operation.MayPublish size) : operation.Writes := by
  cases operation <;> trivial

theorem Operation.Writes.locks {operation : Operation} (writes : operation.Writes) :
    operation.Locks := by
  cases operation <;> trivial

theorem Operation.Writes.returns_none {operation : Operation} (writes : operation.Writes)
    (capacity : Nat) : operation.Returns capacity .none := by
  cases operation <;> trivial

theorem Operation.Writes.returns_sequence {operation : Operation} (writes : operation.Writes)
    (capacity : Nat) (sequence : BitVec 64) : operation.Returns capacity (.sequence sequence) := by
  cases operation <;> trivial

theorem Operation.Reads.returns_unit {operation : Operation} (reads : operation.Reads)
    (capacity : Nat) : operation.Returns capacity .unit := by
  cases operation <;> trivial

/-- A step of a call stays in the call, until the call has returned. -/
theorem Takes.within {msg : SharedMessage} {pc : Pc} {act : Act} (takes : Takes msg pc act)
    {operation : Operation} (within : pc.Within msg.capacity operation) :
    act.pc.Within msg.capacity operation ∨ ∃ outcome, pc = .done outcome := by
  cases takes with
  | finish outcome => exact .inr ⟨outcome, rfl⟩
  | invoke operation => cases within
  | refuse writer stopped => exact .inl ((Writer.writes within).returns_none _)
  | enter writer running | lock writer free | loadSequence writer
  | loadReaders writer currentSeq target positive | loadReadersPass writer currentSeq free
  | firstWait writer readerState pending | firstPass writer readerState consumed
  | kick writer ticket running | nextTicket writer | nextWait writer ticket pending
  | nextPass writer ticket consumed | setWriting writer | drainTicket writer
  | drainBusy writer ticket busy | drainWait writer ticket running => exact .inl within
  | giveUp writer ticket stopped =>
      exact .inl ⟨(Writer.writes within).locks, (Writer.writes within).returns_none _⟩
  | drainedSlice newData ticket none fits => exact .inl ⟨within, fits⟩
  | drainedLarge newData ticket none large => exact .inl ⟨rfl, newData, within, large⟩
  | drainedGuard ticket none => exact .inl within
  | drainGiveUp writer ticket stopped => exact .inl (Writer.writes within)
  | clearWriting =>
      exact .inl ⟨Operation.Writes.locks within, Operation.Writes.returns_none within _⟩
  | copyByte newData index bound | store index byte bound => exact .inl within
  | copied newData index bound =>
      left
      obtain ⟨rfl, _⟩ := within
      rfl
  | publish size fits =>
      left
      cases within
      trivial
  | refuseSize size large | dropWrite =>
      left
      cases within
      trivial
  | abandon outcome =>
      left
      obtain ⟨rfl, newData, rfl, large⟩ := within
      exact large
  | loadPacked size | exchangeFails size oldPacked => exact .inl within
  | exchange size => exact .inl (Operation.MayPublish.writes within)
  | unlock outcome => exact .inl within.2
  | readTicket lastSeenSeq block | readWait lastSeenSeq block ticket reason
  | readNew lastSeenSeq block ticket new down | verifyFails lastSeenSeq block sequence =>
      exact .inl within
  | readEnded lastSeenSeq block ticket stopped same
  | readNothing lastSeenSeq ticket running same =>
      left
      cases within
      trivial
  | granted lastSeenSeq block sequence down same =>
      left
      cases within
      trivial
  | dropRead sequence => exact .inl within
  | setStopped | lockTarget count free => exact .inl within
  | waitReturns site ticket spins changed | wakeUp site ticket =>
      left
      rw [WaitSite.within_resume _ _ site ticket]
      exact within
  | spin site ticket spins same | park site ticket same | notify site => exact .inl within
  | wake site =>
      left
      cases site with
      | published sequence => exact ⟨Operation.Writes.locks within, within.returns_sequence _ _⟩
      | released => exact Operation.Reads.returns_unit within _
      | stopWriters =>
          cases within
          trivial
      | _ => exact within
  | panic site at_ membership =>
      left
      rw [at_.within] at within
      rcases membership with rfl | rfl <;> cases within <;> trivial
  | unchanged size at_ same =>
      left
      rwa [at_.within] at within
  | unchangedTarget count at_ same =>
      left
      rw [at_.within] at within
      cases within
      exact ⟨trivial, trivial⟩
  | compute site at_ =>
      left
      rwa [at_.within] at within
  | update site policy run =>
      left
      cases site with
      | register lastSeenSeq block sequence | unregister lastSeenSeq block
      | resetConsumed size => exact within
      | release sequence =>
          simp only [UpdateSite.after]
          split
          · exact within
          · exact Operation.Reads.returns_unit within _
      | setTarget count =>
          cases within
          exact ⟨trivial, trivial⟩
      | addReader | removeReader =>
          cases within
          trivial

end RsIpc
