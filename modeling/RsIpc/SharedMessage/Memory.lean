import RsIpc.Word.Readers
import RsIpc.Word.Sequence

/-!
# The shared words

The state of one `SharedMessage` mapping and the atomic operations that the
program performs on it.  A party changes the mapping only through `Effect`, one
indivisible operation at a time.
-/

namespace RsIpc

/-- A futex word that counts notifications modulo `2 ^ 32`.  The model keeps the
whole count, so that a run can say how many notifications it made. -/
structure SharedCondvar where
  notified : Nat
  deriving DecidableEq, Repr

/-- The futex word after `notified` notifications. -/
def SharedCondvar.word (notified : Nat) : BitVec 32 :=
  BitVec.ofNat 32 notified

def SharedCondvar.value (condvar : SharedCondvar) : BitVec 32 :=
  word condvar.notified

/-- The two condition variables of a mapping. -/
inductive Condvar
  | writer
  | readerDone
  deriving DecidableEq, Repr

/-- The mapped struct.  `writerMutex` says whether the lock is held; taking and
releasing it are single steps here. -/
structure SharedMessage where
  sequenceAndFlags : BitVec 64
  dataSize : Nat
  readersState : BitVec 64
  writerMutex : Bool
  writerCondvar : SharedCondvar
  readerDoneCondvar : SharedCondvar
  data : List UInt8
  deriving DecidableEq, Repr

/-- The closures that the program passes to `update_reader_state`. -/
inductive Mutator
  | register
  | unregister
  | release
  | resetConsumed
  | setTarget (count : BitVec 16)
  | addReader
  | removeReader
  deriving DecidableEq, Repr

/-- Run a closure; `none` is a panic. -/
def Mutator.run : Mutator → ReadersStateCount → Option ReadersStateCount
  | .register, state => some { state with activeReaders := state.activeReaders + 1 }
  | .unregister, state => some { state with activeReaders := state.activeReaders - 1 }
  | .release, state => some { state with
      activeReaders := state.activeReaders - 1
      dataConsumed := state.dataConsumed + 1 }
  | .resetConsumed, state => some { state with dataConsumed := 0 }
  | .setTarget count, state => some { state with targetRead := count }
  | .addReader, state =>
      if state.consumers = BitVec.allOnes 16 then none
      else some { state with consumers := state.consumers + 1 }
  | .removeReader, state =>
      if state.consumers = 0 then none
      else some { state with consumers := state.consumers - 1 }

namespace SharedMessage

def capacity (msg : SharedMessage) : Nat :=
  msg.data.length

def getSequenceState (msg : SharedMessage) : SequenceState :=
  .ofPacked msg.sequenceAndFlags

def getReaderState (msg : SharedMessage) : ReadersStateCount :=
  .ofPacked msg.readersState

def currentSequence (msg : SharedMessage) : BitVec 64 :=
  msg.getSequenceState.sequence

def isStopped (msg : SharedMessage) : Bool :=
  msg.getSequenceState.stopped

/-- `data_ref`: the published prefix of the buffer; `none` is the slicing panic. -/
def dataRef (msg : SharedMessage) : Option (List UInt8) :=
  if msg.dataSize ≤ msg.capacity then some (msg.data.take msg.dataSize) else none

def condvar (msg : SharedMessage) : Condvar → SharedCondvar
  | .writer => msg.writerCondvar
  | .readerDone => msg.readerDoneCondvar

/-- How often a condition variable has been notified. -/
def notified (msg : SharedMessage) (which : Condvar) : Nat :=
  (msg.condvar which).notified

end SharedMessage

/-- One indivisible operation on the words.  Loads, failed exchanges and steps
local to a party are `observe`; `wake` is the futex wake that ends
`notify_all`, which touches no word. -/
inductive Effect
  | observe
  | lock
  | unlock
  | setWriting
  | clearWriting
  | setStopped
  | publish
  | mutate (mutator : Mutator)
  | storeSize (size : Nat)
  | storeByte (index : Nat) (byte : UInt8)
  | notify (which : Condvar)
  | wake (which : Condvar)
  deriving DecidableEq, Repr

namespace Effect

/-- A successful exchange found the word it had computed from, so `publish` and
`mutate` compute the new word from the current one. -/
def apply : Effect → SharedMessage → SharedMessage
  | .observe, msg => msg
  | .lock, msg => { msg with writerMutex := true }
  | .unlock, msg => { msg with writerMutex := false }
  | .setWriting, msg => { msg with
      sequenceAndFlags := msg.sequenceAndFlags ||| SequenceState.writingInProgressMask }
  | .clearWriting, msg => { msg with
      sequenceAndFlags := msg.sequenceAndFlags &&& ~~~SequenceState.writingInProgressMask }
  | .setStopped, msg => { msg with
      sequenceAndFlags := msg.sequenceAndFlags ||| SequenceState.stoppedMask }
  | .publish, msg => { msg with sequenceAndFlags := msg.getSequenceState.published.toPacked }
  | .mutate mutator, msg =>
      match mutator.run msg.getReaderState with
      | some policy => { msg with readersState := policy.toPacked }
      | none => msg
  | .storeSize size, msg => { msg with dataSize := size }
  | .storeByte index byte, msg => { msg with data := msg.data.set index byte }
  | .notify .writer, msg => { msg with writerCondvar := ⟨msg.writerCondvar.notified + 1⟩ }
  | .notify .readerDone, msg =>
      { msg with readerDoneCondvar := ⟨msg.readerDoneCondvar.notified + 1⟩ }
  | .wake _, msg => msg

/-! ## What each operation leaves alone -/

variable (effect : Effect) (msg : SharedMessage)

/-- The view of the sequence word after an operation. -/
theorem getSequenceState_apply :
    (effect.apply msg).getSequenceState =
      match effect with
      | .setWriting => { msg.getSequenceState with writingInProgress := true }
      | .clearWriting => { msg.getSequenceState with writingInProgress := false }
      | .setStopped => { msg.getSequenceState with stopped := true }
      | .publish => msg.getSequenceState.published
      | _ => msg.getSequenceState := by
  cases effect with
  | setWriting => exact SequenceState.ofPacked_or_writingInProgressMask _
  | clearWriting => exact SequenceState.ofPacked_and_not_writingInProgressMask _
  | setStopped => exact SequenceState.ofPacked_or_stoppedMask _
  | publish => exact SequenceState.ofPacked_published _
  | mutate mutator =>
      simp only [apply]
      split <;> rfl
  | notify which => cases which <;> rfl
  | _ => rfl

/-- The view of the readers word after an operation. -/
theorem getReaderState_apply :
    (effect.apply msg).getReaderState =
      match effect with
      | .mutate mutator => (mutator.run msg.getReaderState).getD msg.getReaderState
      | _ => msg.getReaderState := by
  cases effect with
  | mutate mutator =>
      simp only [apply]
      cases mutator.run msg.getReaderState with
      | none => rfl
      | some policy => exact ReadersStateCount.ofPacked_toPacked policy
  | notify which => cases which <;> rfl
  | _ => rfl

theorem writerMutex_apply :
    (effect.apply msg).writerMutex =
      match effect with
      | .lock => true
      | .unlock => false
      | _ => msg.writerMutex := by
  cases effect with
  | mutate mutator =>
      simp only [apply]
      split <;> rfl
  | notify which => cases which <;> rfl
  | _ => rfl

theorem dataSize_apply :
    (effect.apply msg).dataSize =
      match effect with
      | .storeSize size => size
      | _ => msg.dataSize := by
  cases effect with
  | mutate mutator =>
      simp only [apply]
      split <;> rfl
  | notify which => cases which <;> rfl
  | _ => rfl

theorem data_apply :
    (effect.apply msg).data =
      match effect with
      | .storeByte index byte => msg.data.set index byte
      | _ => msg.data := by
  cases effect with
  | mutate mutator =>
      simp only [apply]
      split <;> rfl
  | notify which => cases which <;> rfl
  | _ => rfl

theorem notified_apply (which : Condvar) :
    (effect.apply msg).notified which =
      match effect with
      | .notify other => if other = which then msg.notified which + 1 else msg.notified which
      | _ => msg.notified which := by
  cases effect with
  | mutate mutator =>
      simp only [apply]
      split <;> rfl
  | notify other => cases other <;> cases which <;> rfl
  | _ => rfl

@[simp]
theorem capacity_apply : (effect.apply msg).capacity = msg.capacity := by
  simp only [SharedMessage.capacity, data_apply]
  split
  · exact List.length_set
  · rfl

end Effect

theorem SharedMessage.getReaderState_mutate {msg : SharedMessage} {mutator : Mutator}
    {policy : ReadersStateCount} (run : mutator.run msg.getReaderState = some policy) :
    ((Effect.mutate mutator).apply msg).getReaderState = policy := by
  rw [Effect.getReaderState_apply]
  simp only [run, Option.getD_some]

end RsIpc
