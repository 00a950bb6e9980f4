import RsIpc.SharedMessage.Memory

/-!
# The program of one party

A party runs one call, or holds one guard, at a time; a thread with several
guards in hand is several parties.  `Pc` names the points between two
indivisible operations of the source, with the locals that are live there, and
`next` is the operation performed at each of them.  The functions called from
several places (`wait`, `notify_all` and `update_reader_state`) are modelled
once, with the call site as a parameter.
-/

namespace RsIpc

/-- What `start_write` was called for: the data of `write_slice`, or `write`. -/
inductive Writer
  | slice (newData : List UInt8)
  | guard
  deriving DecidableEq, Repr

/-- How a call ended. -/
inductive Outcome
  | unit
  | none
  | sequence (sequence : BitVec 64)
  | panicked
  deriving DecidableEq, Repr

/-- The public operations. -/
inductive Operation
  | writeSlice (newData : List UInt8)
  | write
  | read (lastSeenSeq : BitVec 64) (block : Bool)
  | stop
  | setTargetReadCount (count : BitVec 16)
  | addReader
  | removeReader
  deriving DecidableEq, Repr

/-- The calls of `SharedCondvar::wait`. -/
inductive WaitSite
  | backpressure (writer : Writer)
  | drain (writer : Writer)
  | reader (lastSeenSeq : BitVec 64) (block : Bool)
  deriving DecidableEq, Repr

/-- The calls of `SharedCondvar::notify_all`. -/
inductive NotifySite
  | kick (writer : Writer) (ticket : Nat)
  | published (sequence : BitVec 64)
  | released
  | unregistered (lastSeenSeq : BitVec 64) (block : Bool)
  | stopReaders
  | stopWriters
  deriving DecidableEq, Repr

/-- The calls of `update_reader_state`. -/
inductive UpdateSite
  | register (lastSeenSeq : BitVec 64) (block : Bool) (sequence : BitVec 64)
  | unregister (lastSeenSeq : BitVec 64) (block : Bool)
  | release (sequence : BitVec 64)
  | resetConsumed (size : Nat)
  | setTarget (count : BitVec 16)
  | addReader
  | removeReader
  deriving DecidableEq, Repr

/-- The points of the program.  A `ticket` is the count behind the condition
variable value that was read. -/
inductive Pc
  | idle
  | done (outcome : Outcome)
  -- `start_write`, up to the end of the backpressure loop
  | entryCheck (writer : Writer)
  | lock (writer : Writer)
  | loadSequence (writer : Writer)
  | loadReaders (writer : Writer) (currentSeq : BitVec 64)
  | firstTicket (writer : Writer) (readerState : ReadersStateCount)
  | backpressureStopped (writer : Writer) (ticket : Nat)
  | nextTicket (writer : Writer)
  | nextReaders (writer : Writer) (ticket : Nat)
  -- `start_write`, waiting for active readers
  | setWriting (writer : Writer)
  | drainTicket (writer : Writer)
  | drainReaders (writer : Writer) (ticket : Nat)
  | drainStopped (writer : Writer) (ticket : Nat)
  | clearWriting
  -- the buffer belongs to the writer
  | copy (newData : List UInt8) (index : Nat)
  | writeGuard
  | abandon (outcome : Outcome)
  -- `publish_write`
  | loadPacked (size : Nat)
  | exchange (size : Nat) (oldPacked : BitVec 64)
  -- the writer guard is dropped on return
  | unlock (outcome : Outcome)
  -- `read`
  | readTicket (lastSeenSeq : BitVec 64) (block : Bool)
  | readState (lastSeenSeq : BitVec 64) (block : Bool) (ticket : Nat)
  | verify (lastSeenSeq : BitVec 64) (block : Bool) (sequence : BitVec 64)
  | readGuard (sequence : BitVec 64)
  -- `stop` and `set_target_read_count`
  | setStopped
  | lockTarget (count : BitVec 16)
  -- `wait`, `notify_all` and `update_reader_state`
  | wait (site : WaitSite) (ticket : Nat) (spins : Nat)
  | parked (site : WaitSite) (ticket : Nat)
  | notify (site : NotifySite)
  | wake (site : NotifySite)
  | update (site : UpdateSite)
  | cas (site : UpdateSite) (packed : BitVec 64)
  deriving DecidableEq, Repr

/-- A published message: the number and the size given to it, and the bytes of
the buffer at the exchange that published it. -/
structure Message where
  sequence : BitVec 64
  size : Nat
  bytes : List UInt8
  deriving DecidableEq, Repr

/-- Steps that the history of a run records. -/
inductive Event
  | published (message : Message)
  | admitted (sequence : BitVec 64)
  | released (sequence : BitVec 64)
  | ended (sequence : BitVec 64)
  | joined
  | left
  deriving DecidableEq, Repr

/-- One step of a party: the operation on the words, the point it leads to, and
what the history records. -/
structure Act where
  effect : Effect
  pc : Pc
  event : Option Event := .none
  deriving DecidableEq, Repr

/-- A step that changes no word. -/
abbrev Act.goto (pc : Pc) : Act := ⟨.observe, pc, .none⟩

/-- What the scheduler and the caller decide: `spurious` is a spurious failure of
`compare_exchange_weak` or a spurious wake-up, and the last three are what the
holder of a guard does with it. -/
inductive Choice
  | go
  | spurious
  | invoke (operation : Operation)
  | store (index : Nat) (byte : UInt8)
  | publish (size : Nat)
  | drop
  deriving DecidableEq, Repr

def Operation.start : Operation → Pc
  | .writeSlice newData => .entryCheck (.slice newData)
  | .write => .entryCheck .guard
  | .read lastSeenSeq block => .readTicket lastSeenSeq block
  | .stop => .setStopped
  | .setTargetReadCount count => .lockTarget count
  | .addReader => .update .addReader
  | .removeReader => .update .removeReader

/-! ## `SharedCondvar` -/

def WaitSite.condvar : WaitSite → Condvar
  | .backpressure _ | .drain _ => .readerDone
  | .reader _ _ => .writer

/-- Where the caller goes on after `wait`. -/
def WaitSite.resume : WaitSite → Pc
  | .backpressure writer => .nextTicket writer
  | .drain writer => .drainTicket writer
  | .reader lastSeenSeq block => .readTicket lastSeenSeq block

/-- The spin limit of `wait`. -/
def maxSpins : Nat := 1000

/-- `wait`: a spin iteration, or at the end of the spin phase `futex_wait`, which
compares and parks in one step. -/
def waitStep (msg : SharedMessage) (site : WaitSite) (ticket : Nat) : Nat → Act
  | spins + 1 =>
      if (msg.condvar site.condvar).value ≠ SharedCondvar.word ticket then .goto site.resume
      else .goto (.wait site ticket spins)
  | 0 =>
      if (msg.condvar site.condvar).value ≠ SharedCondvar.word ticket then .goto site.resume
      else .goto (.parked site ticket)

def NotifySite.condvar : NotifySite → Condvar
  | .kick _ _ | .published _ | .stopReaders => .writer
  | .released | .unregistered _ _ | .stopWriters => .readerDone

/-- Where the caller goes on after `notify_all`. -/
def NotifySite.after : NotifySite → Pc
  | .kick writer ticket => .wait (.backpressure writer) ticket maxSpins
  | .published sequence => .unlock (.sequence sequence)
  | .released => .done .unit
  | .unregistered lastSeenSeq block => .readTicket lastSeenSeq block
  | .stopReaders => .notify .stopWriters
  | .stopWriters => .done .unit

/-! ## `update_reader_state` -/

def UpdateSite.mutator : UpdateSite → Mutator
  | .register _ _ _ => .register
  | .unregister _ _ => .unregister
  | .release _ => .release
  | .resetConsumed _ => .resetConsumed
  | .setTarget count => .setTarget count
  | .addReader => .addReader
  | .removeReader => .removeReader

/-- Where the caller goes on with the policy that `update_reader_state` returned. -/
def UpdateSite.after : UpdateSite → ReadersStateCount → Pc
  | .register lastSeenSeq block sequence, _ => .verify lastSeenSeq block sequence
  | .unregister lastSeenSeq block, _ => .notify (.unregistered lastSeenSeq block)
  | .release _, policy => if policy.activeReaders = 0 then .notify .released else .done .unit
  | .resetConsumed size, _ => .loadPacked size
  | .setTarget _, _ => .unlock .unit
  | .addReader, _ | .removeReader, _ => .done .unit

def UpdateSite.event : UpdateSite → Option Event
  | .release sequence => some (.released sequence)
  | .addReader => some .joined
  | .removeReader => some .left
  | _ => none

/-- The loop body up to the exchange, on the value just read. -/
def attempt (site : UpdateSite) (packed : BitVec 64) : Act :=
  match site.mutator.run (.ofPacked packed) with
  | none => .goto (.done .panicked)
  | some policy =>
      if policy.toPacked = packed then ⟨.observe, site.after policy, site.event⟩
      else .goto (.cas site packed)

/-- `compare_exchange_weak` on the readers word. -/
def casStep (msg : SharedMessage) (site : UpdateSite) (packed : BitVec 64) (spurious : Bool) : Act :=
  if spurious = false ∧ msg.readersState = packed then
    match site.mutator.run (.ofPacked packed) with
    | none => .goto (.done .panicked)
    | some policy => ⟨.mutate site.mutator, site.after policy, site.event⟩
  else attempt site msg.readersState

/-! ## The calls -/

/-- The head of the backpressure loop. -/
def backpressure (writer : Writer) (ticket : Nat) (readerState : ReadersStateCount) : Pc :=
  if readerState.dataConsumed < readerState.getTargetConsumed then
    .backpressureStopped writer ticket
  else .setWriting writer

/-- `start_write` has returned the writer guard.  `write_slice` checks the length
before it copies, and its panic drops the guard. -/
def acquired (msg : SharedMessage) : Writer → Pc
  | .slice newData => if msg.capacity < newData.length then .abandon .panicked else .copy newData 0
  | .guard => .writeGuard

/-- `read` after it loaded the sequence word. -/
def readDecision (state : SequenceState) (lastSeenSeq : BitVec 64) (block : Bool)
    (ticket : Nat) : Act :=
  if state.stopped ∧ state.sequence = lastSeenSeq then
    ⟨.observe, .done .none, some (.ended lastSeenSeq)⟩
  else if state.sequence = lastSeenSeq then
    if block then .goto (.wait (.reader lastSeenSeq block) ticket maxSpins)
    else .goto (.done .none)
  else if state.writingInProgress then
    .goto (.wait (.reader lastSeenSeq block) ticket maxSpins)
  else .goto (.update (.register lastSeenSeq block state.sequence))

/-- `compare_exchange_weak` on the sequence word in `publish_write`. -/
def exchangeStep (msg : SharedMessage) (size : Nat) (oldPacked : BitVec 64) (spurious : Bool) : Act :=
  if spurious = false ∧ msg.sequenceAndFlags = oldPacked then
    let newSeq := (SequenceState.ofPacked oldPacked).nextSequence
    ⟨.publish, .notify (.published newSeq), some (.published ⟨newSeq, size, msg.data.take size⟩)⟩
  else .goto (.exchange size msg.sequenceAndFlags)

/-- The holder of a `MessageWriteGuard` stores bytes, publishes, or drops it;
`publish` refuses a size beyond the capacity and drops the guard. -/
def writeGuardStep (msg : SharedMessage) : Choice → Option Act
  | .store index byte =>
      if index < msg.capacity then some ⟨.storeByte index byte, .writeGuard, none⟩ else none
  | .publish size =>
      if msg.capacity < size then some ⟨.unlock, .done .none, none⟩
      else some ⟨.storeSize size, .update (.resetConsumed size), none⟩
  | .drop => some ⟨.unlock, .done .unit, none⟩
  | _ => none

/-- The step at a point where the program alone decides. -/
def advance (msg : SharedMessage) : Pc → Option Act
  | .done _ => some (.goto .idle)
  | .entryCheck writer =>
      some (.goto (if msg.isStopped then .done .none else .lock writer))
  | .lock writer => if msg.writerMutex then none else some ⟨.lock, .loadSequence writer, none⟩
  | .loadSequence writer => some (.goto (.loadReaders writer msg.currentSequence))
  | .loadReaders writer currentSeq =>
      some (.goto (if 0 < msg.getReaderState.getTargetConsumed ∧ 0 < currentSeq
        then .firstTicket writer msg.getReaderState else .setWriting writer))
  | .firstTicket writer readerState =>
      some (.goto (backpressure writer (msg.notified .readerDone) readerState))
  | .backpressureStopped writer ticket =>
      some (.goto (if msg.isStopped then .unlock .none else .notify (.kick writer ticket)))
  | .nextTicket writer => some (.goto (.nextReaders writer (msg.notified .readerDone)))
  | .nextReaders writer ticket => some (.goto (backpressure writer ticket msg.getReaderState))
  | .setWriting writer => some ⟨.setWriting, .drainTicket writer, none⟩
  | .drainTicket writer => some (.goto (.drainReaders writer (msg.notified .readerDone)))
  | .drainReaders writer ticket =>
      some (.goto (if 0 < msg.getReaderState.activeReaders then .drainStopped writer ticket
        else acquired msg writer))
  | .drainStopped writer ticket =>
      some (.goto (if msg.isStopped then .clearWriting else .wait (.drain writer) ticket maxSpins))
  | .clearWriting => some ⟨.clearWriting, .unlock .none, none⟩
  | .copy newData index =>
      some (if bound : index < newData.length then
        ⟨.storeByte index newData[index], .copy newData (index + 1), none⟩
      else ⟨.storeSize newData.length, .update (.resetConsumed newData.length), none⟩)
  | .abandon outcome => some ⟨.unlock, .done outcome, none⟩
  | .loadPacked size => some (.goto (.exchange size msg.sequenceAndFlags))
  | .exchange size oldPacked => some (exchangeStep msg size oldPacked false)
  | .unlock outcome => some ⟨.unlock, .done outcome, none⟩
  | .readTicket lastSeenSeq block =>
      some (.goto (.readState lastSeenSeq block (msg.notified .writer)))
  | .readState lastSeenSeq block ticket =>
      some (readDecision msg.getSequenceState lastSeenSeq block ticket)
  | .verify lastSeenSeq block sequence =>
      some (if msg.getSequenceState.writingInProgress ∨ msg.currentSequence ≠ sequence then
        .goto (.update (.unregister lastSeenSeq block))
      else ⟨.observe, .readGuard sequence, some (.admitted sequence)⟩)
  | .setStopped => some ⟨.setStopped, .notify .stopReaders, none⟩
  | .lockTarget count =>
      if msg.writerMutex then none else some ⟨.lock, .update (.setTarget count), none⟩
  | .wait site ticket spins => some (waitStep msg site ticket spins)
  | .notify site => some ⟨.notify site.condvar, .wake site, none⟩
  | .wake site => some ⟨.wake site.condvar, site.after, none⟩
  | .update site => some (attempt site msg.readersState)
  | .cas site packed => some (casStep msg site packed false)
  | .idle | .writeGuard | .readGuard _ | .parked _ _ => none

/-- The step of a party at `pc`; `none` where the choice does not apply or the
party is blocked. -/
def next (msg : SharedMessage) (choice : Choice) (pc : Pc) : Option Act :=
  match choice, pc with
  | .go, pc => advance msg pc
  | .invoke operation, .idle => some (.goto operation.start)
  | .spurious, .cas site packed => some (casStep msg site packed true)
  | .spurious, .exchange size oldPacked => some (exchangeStep msg size oldPacked true)
  | .spurious, .parked site _ => some (.goto site.resume)
  | .drop, .readGuard sequence => some (.goto (.update (.release sequence)))
  | choice, .writeGuard => writeGuardStep msg choice
  | _, _ => none

end RsIpc
