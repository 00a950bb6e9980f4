import RsIpc.Python.LastMessage

/-!
# The reader thread

A `ReadAsync` instance has a thread that reads the shared memory and queues what it
has read; the caller takes messages from the queue and gets `None` once the thread
has ended and the queue is empty.  The thread looks at the stopped flag before each
`read`, and `read` itself hands out the last message of a stopped memory.
-/

namespace RsIpc

open Protocol Transition SequenceState

universe u

namespace ReadAsync

structure ReceiverQueueData where
  sequence : BitVec 64
  data : List UInt8
  deriving DecidableEq

/-- Where the reader thread is in its loop; while it is in a call, its point in the
program says the rest. -/
inductive Stage
  | looping
  | copied (queueData : ReceiverQueueData)
  | ended
  deriving DecidableEq

/-- The instance: the reader thread with its last version, the queue, the number
stored last, and what the caller got, with `None` as the end of it. -/
structure Instance where
  stage : Stage
  lastReaderVersion : BitVec 64
  queue : List ReceiverQueueData
  lastReadSequence : BitVec 64
  returned : List ReceiverQueueData
  gotNone : Bool
  deriving DecidableEq

/-- The steps of the whole: those of other parties, of the reader thread, and the
calls of `read`. -/
inductive Choice (ι : Type u)
  | others (party : ι) (choice : RsIpc.Choice)
  | check
  | run (spurious : Bool)
  | copy
  | drop
  | send
  | again
  | receive (block : Bool)
  deriving DecidableEq

variable {ι : Type u} [DecidableEq ι]

/-- `start_reader_thread` and `read_async`.  The instance is alive, so the queue is
open and `send` succeeds; its caller stops at the first `None`. -/
def client (thread : ι) : Client (State ι) (ι × RsIpc.Choice) Instance (Choice ι) :=
  fun core own choice =>
    match choice with
    | .others party choice => if party = thread then none else some (some (party, choice), own)
    | .check =>
        match own.stage, core.pc thread with
        | .looping, .idle =>
            if core.msg.isStopped then some (none, { own with stage := .ended })
            else some (some (thread, .invoke (.read own.lastReaderVersion true)), own)
        | _, _ => none
    | .run spurious =>
        match core.pc thread with
        | .idle | .done _ => none
        | _ => some (some (thread, if spurious then .spurious else .go), own)
    | .copy =>
        match own.stage, core.pc thread with
        | .looping, .readGuard number =>
            core.msg.dataRef.map fun data => (none, { own with stage := .copied ⟨number, data⟩ })
        | _, _ => none
    | .drop =>
        match own.stage with
        | .copied _ => some (some (thread, .drop), own)
        | _ => none
    | .send =>
        match own.stage, core.pc thread with
        | .copied queueData, .done _ =>
            some (some (thread, .go), { own with
              stage := .looping
              lastReaderVersion := queueData.sequence
              queue := own.queue ++ [queueData] })
        | _, _ => none
    | .again =>
        match own.stage, core.pc thread with
        | .looping, .done _ => some (some (thread, .go), own)
        | _, _ => none
    | .receive block =>
        if own.gotNone then none
        else
          match own.queue with
          | queueData :: rest =>
              some (none, { own with
                queue := rest
                lastReadSequence := queueData.sequence
                returned := own.returned ++ [queueData] })
          | [] =>
              if own.stage = .ended ∨ block = false then some (none, { own with gotNone := true })
              else none

/-- An instance over memory that other parties use as well. -/
def system (thread : ι) (targetRead consumers : BitVec 16) :
    System (Joint (State ι) Instance) (Choice ι) :=
  (RsIpc.system ι targetRead consumers).joint (client thread) ⟨.looping, 0, [], 0, [], false⟩

/-- The caller blocks. -/
def Blocks : StepCondition (Joint (State ι) Instance) (Choice ι) :=
  fun _ choice _ => choice ≠ .receive false

/-- Whenever the loop of the reader thread finds the memory stopped, the thread has
queued the current message. -/
def EndsCaughtUp : StepCondition (Joint (State ι) Instance) (Choice ι) :=
  fun source choice _ => choice = .check → source.core.msg.isStopped = true →
    source.own.lastReaderVersion = source.core.msg.currentSequence

instance (source : Joint (State ι) Instance) (choice : Choice ι)
    (target : Joint (State ι) Instance) : Decidable (Blocks source choice target) :=
  inferInstanceAs (Decidable (choice ≠ .receive false))

instance (source : Joint (State ι) Instance) (choice : Choice ι)
    (target : Joint (State ι) Instance) : Decidable (EndsCaughtUp source choice target) :=
  inferInstanceAs (Decidable (_ → _ → _))

/-- What each choice does. -/
inductive Moves (thread : ι) (source : Joint (State ι) Instance) :
    Choice ι → Joint (State ι) Instance → Prop
  | others (party : ι) (choice : RsIpc.Choice) (theirs : party ≠ thread) {core : State ι}
      (taken : source.core.step (party, choice) = some core) :
      Moves thread source (.others party choice) ⟨core, source.own⟩
  | stop (looping : source.own.stage = .looping) (stopped : source.core.msg.isStopped = true) :
      Moves thread source .check ⟨source.core, { source.own with stage := .ended }⟩
  | call (looping : source.own.stage = .looping) (running : source.core.msg.isStopped = false)
      {core : State ι} (taken : source.core.step
        (thread, .invoke (.read source.own.lastReaderVersion true)) = some core) :
      Moves thread source .check ⟨core, source.own⟩
  | run (spurious : Bool) {core : State ι}
      (taken : source.core.step (thread, if spurious then .spurious else .go) = some core) :
      Moves thread source (.run spurious) ⟨core, source.own⟩
  | copy (sequence : BitVec 64) (data : List UInt8) (looping : source.own.stage = .looping)
      (holds : source.core.pc thread = .readGuard sequence)
      (shows : source.core.msg.dataRef = some data) :
      Moves thread source .copy
        ⟨source.core, { source.own with stage := .copied ⟨sequence, data⟩ }⟩
  | drop (queueData : ReceiverQueueData) (copied : source.own.stage = .copied queueData)
      {core : State ι} (taken : source.core.step (thread, .drop) = some core) :
      Moves thread source .drop ⟨core, source.own⟩
  | send (queueData : ReceiverQueueData) (copied : source.own.stage = .copied queueData)
      {core : State ι} (taken : source.core.step (thread, .go) = some core) :
      Moves thread source .send ⟨core, { source.own with
        stage := .looping
        lastReaderVersion := queueData.sequence
        queue := source.own.queue ++ [queueData] }⟩
  | again (looping : source.own.stage = .looping) {core : State ι}
      (taken : source.core.step (thread, .go) = some core) :
      Moves thread source .again ⟨core, source.own⟩
  | receive (block : Bool) (queueData : ReceiverQueueData) (rest : List ReceiverQueueData)
      (waiting : source.own.gotNone = false) (first : source.own.queue = queueData :: rest) :
      Moves thread source (.receive block) ⟨source.core, { source.own with
        queue := rest
        lastReadSequence := queueData.sequence
        returned := source.own.returned ++ [queueData] }⟩
  | nothing (block : Bool) (empty : source.own.queue = [])
      (ends : source.own.stage = .ended ∨ block = false) :
      Moves thread source (.receive block) ⟨source.core, { source.own with gotNone := true }⟩

section Steps

variable {thread : ι} {targetRead consumers : BitVec 16}

theorem moves_of_step {source target : Joint (State ι) Instance} {choice : Choice ι}
    (step : (system thread targetRead consumers).step source choice = some target) :
    Moves thread source choice target := by
  obtain ⟨targetCore, targetOwn⟩ := target
  rcases System.joint_step step with ⟨moves, core⟩ | ⟨⟨party, taken⟩, moves, steps⟩
  · change targetCore = source.core at core
    subst core
    cases choice with
    | check =>
        simp only [client] at moves
        split at moves
        · rename_i looping idle
          split at moves
          · rename_i stopped
            cases moves
            exact .stop looping stopped
          · cases moves
        · cases moves
    | copy =>
        simp only [client] at moves
        split at moves
        · rename_i sequence looping holds
          obtain ⟨data, shows, is⟩ := Option.map_eq_some_iff.mp moves
          cases is
          exact .copy sequence data looping holds shows
        · cases moves
    | receive block =>
        simp only [client] at moves
        split at moves
        · cases moves
        · rename_i waiting
          split at moves
          · rename_i queueData rest first
            cases moves
            exact .receive block queueData rest (by simpa using waiting) first
          · rename_i empty
            rw [Option.ite_none_right_eq_some] at moves
            obtain ⟨ends, moves⟩ := moves
            cases moves
            exact .nothing block empty ends
    | others _ _ | run _ | drop | send | again =>
        simp only [client] at moves
        split at moves <;> cases moves
  · cases choice with
    | others other choice =>
        simp only [client, Option.ite_none_left_eq_some] at moves
        obtain ⟨theirs, moves⟩ := moves
        cases moves
        exact .others party taken theirs steps
    | check =>
        simp only [client] at moves
        split at moves
        · rename_i looping idle
          split at moves
          · cases moves
          · rename_i running
            cases moves
            exact .call looping (by simpa using running) steps
        · cases moves
    | run spurious =>
        simp only [client] at moves
        split at moves
        · cases moves
        · cases moves
        · cases moves
          exact .run spurious steps
    | copy =>
        simp only [client] at moves
        split at moves
        · obtain ⟨data, _, is⟩ := Option.map_eq_some_iff.mp moves
          cases is
        · cases moves
    | drop =>
        simp only [client] at moves
        split at moves
        · rename_i queueData copied
          cases moves
          exact .drop queueData copied steps
        · cases moves
    | send =>
        simp only [client] at moves
        split at moves
        · rename_i queueData outcome copied done
          cases moves
          exact .send queueData copied steps
        · cases moves
    | again =>
        simp only [client] at moves
        split at moves
        · rename_i outcome looping done
          cases moves
          exact .again looping steps
        · cases moves
    | receive block =>
        simp only [client] at moves
        split at moves
        · cases moves
        · split at moves
          · cases moves
          · rw [Option.ite_none_right_eq_some] at moves
            cases moves.2

/-! ## The queue and its end -/

/-- What the thread has queued, and when the caller gets `None`. -/
structure Sound (state : Joint (State ι) Instance) : Prop where
  sent : state.own.lastReaderVersion = 0 ∨ ∃ queueData ∈ state.own.returned ++ state.own.queue,
    queueData.sequence = state.own.lastReaderVersion
  closed : state.own.gotNone = true → state.own.queue = [] ∧ state.own.stage = .ended
  stopped : state.own.stage = .ended → state.core.msg.isStopped = true

theorem Sound.step {source target : Joint (State ι) Instance} {choice : Choice ι}
    (sound : Sound source)
    (step : (system thread targetRead consumers).step source choice = some target)
    (blocks : Blocks source choice target) : Sound target := by
  have later : source.core.msg.isStopped = true → target.core.msg.isStopped = true :=
    System.rel_of_joint_step
      (fun source target => source.msg.isStopped = true → target.msg.isStopped = true)
      (fun _ => id) isStopped_of_step step
  have open_ : source.own.stage ≠ .ended → source.own.gotNone = true → False :=
    fun running none => running (sound.closed none).2
  cases moves_of_step step with
  | others party choice theirs taken =>
      exact ⟨sound.sent, sound.closed, fun ended => later (sound.stopped ended)⟩
  | stop looping stopped =>
      exact ⟨sound.sent, fun none => (open_ (by simp [looping]) none).elim,
        fun _ => stopped⟩
  | call looping running taken =>
      exact ⟨sound.sent, sound.closed, fun ended => later (sound.stopped ended)⟩
  | run spurious taken =>
      exact ⟨sound.sent, sound.closed, fun ended => later (sound.stopped ended)⟩
  | copy sequence data looping holds shows =>
      exact ⟨sound.sent, fun none => (open_ (by simp [looping]) none).elim, nofun⟩
  | drop queueData copied taken =>
      exact ⟨sound.sent, sound.closed, fun ended => later (sound.stopped ended)⟩
  | send queueData copied taken =>
      exact ⟨.inr ⟨queueData, by simp, rfl⟩, fun none => (open_ (by simp [copied]) none).elim, nofun⟩
  | again looping taken =>
      exact ⟨sound.sent, sound.closed, fun ended => later (sound.stopped ended)⟩
  | receive block queueData rest waiting first =>
      refine ⟨?_, fun none => ?_, sound.stopped⟩
      · rcases sound.sent with zero | ⟨sent, mem, number⟩
        · exact .inl zero
        · exact .inr ⟨sent, by simpa [first] using mem, number⟩
      · exact absurd none (by simp [waiting])
  | nothing block empty ends =>
      refine ⟨sound.sent, fun _ => ⟨empty, ?_⟩, sound.stopped⟩
      rcases ends with ended | rfl
      · exact ended
      · exact absurd rfl blocks

theorem sound_of_blocks {state : Joint (State ι) Instance}
    (reachable : (system thread targetRead consumers).ReachableVia Blocks state) : Sound state := by
  refine reachable.invariant Sound ?_ fun _ sound step blocks => sound.step step blocks
  rintro ⟨core, own⟩ ⟨_, rfl⟩
  exact ⟨.inl rfl, nofun, nofun⟩

theorem publishes_le_of_step {source target : Joint (State ι) Instance} {choice : Choice ι}
    (step : (system thread targetRead consumers).step source choice = some target) :
    source.core.publishes ≤ target.core.publishes :=
  System.rel_of_joint_step (fun source target => source.publishes ≤ target.publishes)
    (fun _ => Nat.le_refl _) RsIpc.publishes_le_of_step step

/-- Once the thread has ended, and if nothing was published since, it has queued the
message with the number of this many publishes. -/
def CaughtUp (publishes : Nat) (state : Joint (State ι) Instance) : Prop :=
  publishes ≤ state.core.publishes ∧ (state.core.publishes = publishes →
    state.own.stage = .ended → state.own.lastReaderVersion.toNat = numberAfter publishes)

theorem CaughtUp.step {publishes : Nat} {source target : Joint (State ι) Instance}
    {choice : Choice ι} (reachable : (system thread targetRead consumers).Reachable source)
    (caughtUp : CaughtUp publishes source)
    (step : (system thread targetRead consumers).step source choice = some target)
    (ends : EndsCaughtUp source choice target) : CaughtUp publishes target := by
  have grows := publishes_le_of_step step
  refine ⟨caughtUp.1.trans grows, fun same ended => ?_⟩
  have sameBefore : source.core.publishes = publishes :=
    Nat.le_antisymm (grows.trans same.le) caughtUp.1
  have before := caughtUp.2 sameBefore
  cases moves_of_step step with
  | others | call | run | drop | again | nothing => exact before ended
  | stop looping stopped =>
      change source.own.lastReaderVersion.toNat = _
      rw [ends rfl stopped, ← sameBefore]
      exact currentSequence_eq_numberAfter (System.reachable_core reachable)
  | copy | send => cases ended
  | receive block queueData rest waiting first => exact before ended

/-- A thread that ends only when it has queued the current message ends with the last. -/
theorem endsWithLast (thread : ι) (targetRead consumers : BitVec 16) :
    EndsWithLast (system thread targetRead consumers) Blocks EndsCaughtUp
      (fun state => state.own.gotNone = true)
      (fun state => state.own.returned.map ReceiverQueueData.sequence) := by
  intro state reachable running published choices target run meet last none
  have number := currentSequence_eq_numberAfter (System.reachable_core reachable)
  have caughtUp : CaughtUp state.core.publishes target := by
    refine System.inv_of_exec (CaughtUp state.core.publishes)
      (fun before caughtUp step ok => caughtUp.step before step ok.2) reachable.reachable ?_ run meet
    refine ⟨Nat.le_refl _, fun _ ended => ?_⟩
    rw [(sound_of_blocks reachable).stopped ended] at running
    cases running
  have sound : Sound target :=
    System.inv_of_exec Sound (fun _ sound step ok => sound.step step ok.1) reachable.reachable
      (sound_of_blocks reachable) run meet
  obtain ⟨empty, ended⟩ := sound.closed none
  have version := caughtUp.2 last ended
  rw [← number] at version
  have same : target.own.lastReaderVersion = state.core.msg.currentSequence :=
    BitVec.eq_of_toNat_eq version
  rcases sound.sent with zero | ⟨queueData, mem, sequence⟩
  · exact absurd (same.symm.trans zero)
      (currentSequence_ne_zero (System.reachable_core reachable) published)
  · rw [← same, List.mem_map]
    rw [empty, List.append_nil] at mem
    exact ⟨queueData, mem, sequence⟩

end Steps

/-! ## Both modes -/

/-- A reader that keeps calling until the first `None` has the last message by then: in
`ReadSync` mode always, and in `ReadAsync` mode if its thread ends caught up. -/
theorem both_modes_end_with_last (party : ι) (targetRead consumers : BitVec 16) :
    EndsWithLast (ReadSync.system (· = party) targetRead consumers) ReadSync.Blocks
        (fun _ _ _ => True) (fun state => (state.core.pc party).GotNone)
        (fun state => History.admitted (· = party) state.core.log) ∧
      EndsWithLast (system party targetRead consumers) Blocks EndsCaughtUp
        (fun state => state.own.gotNone = true)
        (fun state => state.own.returned.map ReceiverQueueData.sequence) :=
  ⟨ReadSync.endsWithLast party targetRead consumers, endsWithLast party targetRead consumers⟩

/-- Nothing has happened, over memory of one byte. -/
def unread : Joint (State (Fin 3)) Instance :=
  ⟨State.fresh (Fin 3) 1 0 0, ⟨.looping, 0, [], 0, [], false⟩⟩

theorem initial_unread : (system (1 : Fin 3) 0 0).initial unread :=
  ⟨initial_fresh (Fin 3) 1 0 0, rfl⟩

/-- Steps of another party. -/
def elsewhere (labels : List (Fin 3 × RsIpc.Choice)) : List (Choice (Fin 3)) :=
  labels.map fun label => .others label.1 label.2

/-- The first message is published. -/
def published : Joint (State (Fin 3)) Instance :=
  (system (1 : Fin 3) 0 0).finish unread (elsewhere (calls 0 (.writeSlice [7]) 16))
    (by decide +kernel)

/-- The thread reads and queues the message, and ends after the stop. -/
def readThenStopped : List (Choice (Fin 3)) :=
  .check :: List.replicate 5 (.run false) ++ [.copy, .drop] ++ List.replicate 4 (.run false) ++
    .send :: elsewhere (calls 2 .stop 5) ++ [.check, .receive true, .receive true]

/-- The state after it. -/
def readThenStoppedEnd : Joint (State (Fin 3)) Instance :=
  (system (1 : Fin 3) 0 0).finish published readThenStopped (by decide +kernel)

theorem readThenStopped_has_last :
    1 ∈ readThenStoppedEnd.own.returned.map ReceiverQueueData.sequence := by
  have reachable : (system (1 : Fin 3) 0 0).ReachableVia Blocks published :=
    System.reachableVia_finish initial_unread _ (by decide +kernel)
  have before : published.core.msg.isStopped = false ∧ 0 < published.core.publishes ∧
      published.core.msg.currentSequence = 1 := by decide +kernel
  have after : (system (1 : Fin 3) 0 0).StepsMeet (fun source choice target =>
      Blocks source choice target ∧ EndsCaughtUp source choice target) published readThenStopped ∧
        readThenStoppedEnd.core.publishes = published.core.publishes ∧
          readThenStoppedEnd.own.gotNone = true := by decide +kernel
  obtain ⟨running, some, current⟩ := before
  obtain ⟨meet, last, none⟩ := after
  have returned := (both_modes_end_with_last (1 : Fin 3) 0 0).2 published reachable running some
    readThenStopped readThenStoppedEnd (System.exec_eq_finish _ _ _ _) meet last none
  rwa [current] at returned

/-- The stop comes before the thread looks at the flag for the first time. -/
def stoppedUnread : List (Choice (Fin 3)) :=
  elsewhere (calls 2 .stop 5) ++ [.check, .receive true]

def stoppedUnreadEnd : Joint (State (Fin 3)) Instance :=
  (system (1 : Fin 3) 0 0).finish published stoppedUnread (by decide +kernel)

theorem stoppedUnread_misses_last :
    ¬ EndsWithLast (system (1 : Fin 3) 0 0) Blocks (fun _ _ _ => True)
      (fun state => state.own.gotNone = true)
      (fun state => state.own.returned.map ReceiverQueueData.sequence) := by
  intro ends
  have reachable : (system (1 : Fin 3) 0 0).ReachableVia Blocks published :=
    System.reachableVia_finish initial_unread _ (by decide +kernel)
  have before : published.core.msg.isStopped = false ∧ 0 < published.core.publishes := by
    decide +kernel
  have after : (system (1 : Fin 3) 0 0).StepsMeet (fun source choice target =>
      Blocks source choice target ∧ True) published stoppedUnread ∧
        stoppedUnreadEnd.core.publishes = published.core.publishes ∧
          stoppedUnreadEnd.own.gotNone = true ∧ stoppedUnreadEnd.own.returned = [] := by
    decide +kernel
  obtain ⟨running, some⟩ := before
  obtain ⟨meet, last, none, empty⟩ := after
  have returned := ends published reachable running some stoppedUnread stoppedUnreadEnd
    (System.exec_eq_finish _ _ _ _) meet last none
  change _ ∈ stoppedUnreadEnd.own.returned.map ReceiverQueueData.sequence at returned
  rw [empty] at returned
  cases returned

end ReadAsync

end RsIpc
