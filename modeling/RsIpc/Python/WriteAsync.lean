import Mathlib.Data.Fintype.Sum
import Mathlib.Tactic.DeriveFintype
import RsIpc.SharedMessage.Calls
import RsIpc.Transition.Client

/-!
# `write_async` and its readers

One instance puts payloads into a queue, a background thread writes them, and
`ReadSync` instances read.  `stop` takes the sender of the queue away, and the next
payload then gets a queue and a thread of its own.
-/

namespace RsIpc.WriteAsync

open Transition

universe u

/-- Reader instances, background threads and callers of `stop`. -/
inductive Party (ρ τ σ : Type u)
  | reader (reader : ρ)
  | thread (thread : τ)
  | stopper (stopper : σ)
  deriving DecidableEq, Fintype

/-- The next step of the call that a party is in. -/
def proceed (pc : Pc) (spurious : Bool) : Option RsIpc.Choice :=
  match pc with
  | .done _ => none
  | _ => some (if spurious then .spurious else .go)

/-! ## Readers -/

/-- Whether a reader instance is constructed, and what `read_sync` has done with the
guard that it has. -/
inductive ReaderStage
  | absent
  | registering
  | ready
  | stored
  | copied
  deriving DecidableEq

/-- `new` returns with `add_reader`, or panics with it. -/
def ReaderStage.finish : ReaderStage → Outcome → ReaderStage
  | .registering, .unit => .ready
  | .registering, _ => .absent
  | stage, _ => stage

def ReaderStage.Registered (stage : ReaderStage) : Prop :=
  stage ≠ .absent ∧ stage ≠ .registering

instance (stage : ReaderStage) : Decidable stage.Registered :=
  inferInstanceAs (Decidable (_ ∧ _))

/-- A reader instance, and the payloads that it has copied. -/
structure Reader where
  stage : ReaderStage
  lastReadSequence : BitVec 64
  received : List (List UInt8)

inductive ReaderChoice
  | new
  | read (block : Bool)
  | run (spurious : Bool)
  | store
  | copy
  | drop
  | finish
  deriving DecidableEq

/-- `new`, and `read_sync` one call at a time.  The guard is dropped after the copy, or
by the panic of `data`. -/
def Reader.move (reader : Reader) (msg : SharedMessage) (pc : Pc) :
    ReaderChoice → Option (Option RsIpc.Choice × Reader)
  | .new =>
      if reader.stage = .absent then
        some (some (.invoke .addReader), { reader with stage := .registering })
      else none
  | .read block =>
      if reader.stage = .ready then
        some (some (.invoke (.read reader.lastReadSequence block)), reader)
      else none
  | .run spurious => (proceed pc spurious).map fun choice => (some choice, reader)
  | .store =>
      match pc with
      | .readGuard number =>
          if reader.stage = .ready then
            some (none, { reader with stage := .stored, lastReadSequence := number })
          else none
      | _ => none
  | .copy =>
      if reader.stage = .stored then
        some (none, { reader with
          stage := .copied, received := reader.received ++ msg.dataRef.toList })
      else none
  | .drop =>
      if reader.stage = .copied then some (some .drop, { reader with stage := .ready }) else none
  | .finish =>
      match pc with
      | .done outcome => some (some .go, { reader with stage := reader.stage.finish outcome })
      | _ => none

/-! ## Background threads -/

/-- Where the loop of a background thread is. -/
inductive ThreadStage
  | absent
  | receiving
  | writing (data : List UInt8)
  | ended
  deriving DecidableEq

/-- A background thread and the queue that it receives from. -/
structure Thread where
  stage : ThreadStage
  queue : List (List UInt8)

inductive ThreadChoice
  | receive
  | run (spurious : Bool)
  | finish
  deriving DecidableEq

/-- The loop.  `recv` fails once the queue is empty and its sender gone, and the loop
breaks when `write_slice` returns no number. -/
def Thread.move (thread : Thread) (closed : Bool) (pc : Pc) :
    ThreadChoice → Option (Option RsIpc.Choice × Thread)
  | .receive =>
      match thread.stage, thread.queue with
      | .receiving, data :: queue => some (some (.invoke (.writeSlice data)), ⟨.writing data, queue⟩)
      | .receiving, [] => if closed = true then some (none, ⟨.ended, []⟩) else none
      | _, _ => none
  | .run spurious => (proceed pc spurious).map fun choice => (some choice, thread)
  | .finish =>
      match pc with
      | .done (.sequence _) => some (some .go, { thread with stage := .receiving })
      | .done _ => some (some .go, { thread with stage := .ended })
      | _ => none

/-- The loop stores the number that `write_slice` returned. -/
def ThreadChoice.store (choice : ThreadChoice) (pc : Pc) (last : BitVec 64) : BitVec 64 :=
  match choice, pc with
  | .finish, .done (.sequence number) => number
  | _, _ => last

/-! ## The instance that writes -/

/-- The instance, the threads that it has created, and the readers.  `accepted` lists
the payloads whose `send` succeeded. -/
structure Instance (ρ τ : Type u) where
  sender : Option τ
  lastWrittenSequence : BitVec 64
  threads : τ → Thread
  readers : ρ → Reader
  accepted : List (List UInt8)

variable {ρ τ σ : Type u} [DecidableEq ρ] [DecidableEq τ] [DecidableEq σ]

/-- No reader is constructed and nothing was written. -/
def Instance.start (ρ τ : Type u) : Instance ρ τ where
  sender := none
  lastWrittenSequence := 0
  threads _ := ⟨.absent, []⟩
  readers _ := ⟨.absent, 0, []⟩
  accepted := []

/-- The payload enters the queue of a thread. -/
def Instance.send (own : Instance ρ τ) (thread : τ) (payload : List UInt8) : Instance ρ τ :=
  { own with
    threads := Function.update own.threads thread
      { own.threads thread with queue := (own.threads thread).queue ++ [payload] }
    accepted := own.accepted ++ [payload] }

/-- A new queue and its thread. -/
def Instance.create (own : Instance ρ τ) (fresh : τ) : Instance ρ τ :=
  { own with
    sender := some fresh
    threads := Function.update own.threads fresh ⟨.receiving, []⟩ }

/-- `write_async`, under the lock of the sender.  `send` fails if the thread has
dropped its receiver. -/
def Instance.writeAsync (own : Instance ρ τ) (payload : List UInt8) (fresh : τ) :
    Option (Instance ρ τ) :=
  match own.sender with
  | some thread =>
      if (own.threads thread).stage = .ended then some own else some (own.send thread payload)
  | none =>
      if (own.threads fresh).stage = .absent then some ((own.create fresh).send fresh payload)
      else none

/-- The memory with all its parties, and the instance. -/
abbrev Whole (ρ τ σ : Type u) := Joint (State (Party ρ τ σ)) (Instance ρ τ)

inductive Choice (ρ τ σ : Type u)
  | write (payload : List UInt8) (fresh : τ)
  | thread (thread : τ) (choice : ThreadChoice)
  | reader (reader : ρ) (choice : ReaderChoice)
  | stop (stopper : σ)
  | stopping (stopper : σ) (spurious : Bool)
  | stopped (stopper : σ)
  deriving DecidableEq

/-- All of it.  `closes` tells the calls of `stop` on the instance that writes from
those on the readers. -/
def client (closes : σ → Bool) :
    Client (State (Party ρ τ σ)) (Party ρ τ σ × RsIpc.Choice) (Instance ρ τ) (Choice ρ τ σ) :=
  fun core own choice =>
    match choice with
    | .write payload fresh =>
        if payload.length ≤ core.msg.capacity then
          (own.writeAsync payload fresh).map fun own => (none, own)
        else none
    | .thread thread choice =>
        ((own.threads thread).move (own.sender != some thread) (core.pc (.thread thread)) choice).map
          fun move => (move.1.map fun taken => (.thread thread, taken), { own with
            threads := Function.update own.threads thread move.2
            lastWrittenSequence :=
              choice.store (core.pc (.thread thread)) own.lastWrittenSequence })
    | .reader reader choice =>
        ((own.readers reader).move core.msg (core.pc (.reader reader)) choice).map
          fun move => (move.1.map fun taken => (.reader reader, taken),
            { own with readers := Function.update own.readers reader move.2 })
    | .stop stopper => some (some (.stopper stopper, .invoke .stop), own)
    | .stopping stopper spurious =>
        (proceed (core.pc (.stopper stopper)) spurious).map
          fun taken => (some (.stopper stopper, taken), own)
    | .stopped stopper =>
        match core.pc (.stopper stopper) with
        | .done _ => some (some (.stopper stopper, .go),
            if closes stopper = true then { own with sender := none } else own)
        | _ => none

/-- Memory that waits for all readers, with nobody registered yet. -/
def system (ρ τ : Type u) {σ : Type u} [DecidableEq ρ] [DecidableEq τ] [DecidableEq σ]
    (closes : σ → Bool) :
    System (Whole ρ τ σ) (Choice ρ τ σ) :=
  (RsIpc.system (Party ρ τ σ) 65535 0).joint (client closes) (Instance.start ρ τ)

/-- All readers are constructed before the first payload is written. -/
def AllRegistered : StepCondition (Whole ρ τ σ) (Choice ρ τ σ) :=
  fun source choice _ =>
    match choice with
    | .write _ _ => ∀ reader, (source.own.readers reader).stage.Registered
    | _ => True

omit [DecidableEq ρ] [DecidableEq τ] [DecidableEq σ] in
instance [Fintype ρ] (source : Whole ρ τ σ) (choice : Choice ρ τ σ) (target : Whole ρ τ σ) :
    Decidable (AllRegistered source choice target) :=
  match choice with
  | .write _ _ => Fintype.decidableForallFintype
  | .thread _ _ | .reader _ _ | .stop _ | .stopping _ _ | .stopped _ => .isTrue trivial

/-! ## The steps -/

theorem proceed_eq_some_iff {pc : Pc} {spurious : Bool} {taken : RsIpc.Choice} :
    proceed pc spurious = some taken ↔
      (∀ outcome, pc ≠ .done outcome) ∧ taken = if spurious then .spurious else .go := by
  cases pc with
  | done outcome => simp [proceed]
  | _ => simp [proceed, eq_comm]

/-- What a reader does, and the step of the memory that it takes for it. -/
inductive ReaderMoves (msg : SharedMessage) (pc : Pc) (reader : Reader) :
    ReaderChoice → Option RsIpc.Choice → Reader → Prop
  | new (absent : reader.stage = .absent) :
      ReaderMoves msg pc reader .new (some (.invoke .addReader))
        { reader with stage := .registering }
  | read (block : Bool) (ready : reader.stage = .ready) :
      ReaderMoves msg pc reader (.read block)
        (some (.invoke (.read reader.lastReadSequence block))) reader
  | run (spurious : Bool) (running : ∀ outcome, pc ≠ .done outcome) :
      ReaderMoves msg pc reader (.run spurious) (some (if spurious then .spurious else .go)) reader
  | store (number : BitVec 64) (holds : pc = .readGuard number) (ready : reader.stage = .ready) :
      ReaderMoves msg pc reader .store none
        { reader with stage := .stored, lastReadSequence := number }
  | copy (stored : reader.stage = .stored) :
      ReaderMoves msg pc reader .copy none { reader with
        stage := .copied, received := reader.received ++ msg.dataRef.toList }
  | drop (copied : reader.stage = .copied) :
      ReaderMoves msg pc reader .drop (some .drop) { reader with stage := .ready }
  | finish (outcome : Outcome) (done : pc = .done outcome) :
      ReaderMoves msg pc reader .finish (some .go)
        { reader with stage := reader.stage.finish outcome }

theorem readerMoves_of_move {msg : SharedMessage} {pc : Pc} {reader next : Reader}
    {choice : ReaderChoice} {taken : Option RsIpc.Choice}
    (move : reader.move msg pc choice = some (taken, next)) :
    ReaderMoves msg pc reader choice taken next := by
  cases choice with
  | new =>
      simp only [Reader.move, Option.ite_none_right_eq_some] at move
      obtain ⟨absent, move⟩ := move
      cases move
      exact .new absent
  | read block =>
      simp only [Reader.move, Option.ite_none_right_eq_some] at move
      obtain ⟨ready, move⟩ := move
      cases move
      exact .read block ready
  | run spurious =>
      obtain ⟨step, runs, move⟩ := Option.map_eq_some_iff.mp move
      obtain ⟨running, rfl⟩ := proceed_eq_some_iff.mp runs
      cases move
      exact .run spurious running
  | store =>
      simp only [Reader.move] at move
      split at move
      · rename_i number
        rw [Option.ite_none_right_eq_some] at move
        obtain ⟨ready, move⟩ := move
        cases move
        exact .store number rfl ready
      · cases move
  | copy =>
      simp only [Reader.move, Option.ite_none_right_eq_some] at move
      obtain ⟨stored, move⟩ := move
      cases move
      exact .copy stored
  | drop =>
      simp only [Reader.move, Option.ite_none_right_eq_some] at move
      obtain ⟨copied, move⟩ := move
      cases move
      exact .drop copied
  | finish =>
      simp only [Reader.move] at move
      split at move
      · rename_i outcome
        cases move
        exact .finish outcome rfl
      · cases move

/-- What a background thread does, and the step of the memory that it takes for it. -/
inductive ThreadMoves (closed : Bool) (pc : Pc) :
    Thread → ThreadChoice → Option RsIpc.Choice → Thread → Prop
  | receive (data : List UInt8) (queue : List (List UInt8)) :
      ThreadMoves closed pc ⟨.receiving, data :: queue⟩ .receive
        (some (.invoke (.writeSlice data))) ⟨.writing data, queue⟩
  | hangUp (gone : closed = true) :
      ThreadMoves closed pc ⟨.receiving, []⟩ .receive none ⟨.ended, []⟩
  | run (thread : Thread) (spurious : Bool) (running : ∀ outcome, pc ≠ .done outcome) :
      ThreadMoves closed pc thread (.run spurious) (some (if spurious then .spurious else .go))
        thread
  | written (thread : Thread) (number : BitVec 64) (done : pc = .done (.sequence number)) :
      ThreadMoves closed pc thread .finish (some .go) { thread with stage := .receiving }
  | refused (thread : Thread) (outcome : Outcome) (done : pc = .done outcome)
      (failed : outcome.returned = none) :
      ThreadMoves closed pc thread .finish (some .go) { thread with stage := .ended }

theorem threadMoves_of_move {closed : Bool} {pc : Pc} {thread next : Thread}
    {choice : ThreadChoice} {taken : Option RsIpc.Choice}
    (move : thread.move closed pc choice = some (taken, next)) :
    ThreadMoves closed pc thread choice taken next := by
  cases choice with
  | receive =>
      obtain ⟨stage, queue⟩ := thread
      simp only [Thread.move] at move
      split at move
      · cases move
        exact .receive _ _
      · rw [Option.ite_none_right_eq_some] at move
        obtain ⟨gone, move⟩ := move
        cases move
        exact .hangUp gone
      · cases move
  | run spurious =>
      obtain ⟨step, runs, move⟩ := Option.map_eq_some_iff.mp move
      obtain ⟨running, rfl⟩ := proceed_eq_some_iff.mp runs
      cases move
      exact .run thread spurious running
  | finish =>
      simp only [Thread.move] at move
      split at move
      · rename_i number
        cases move
        exact .written thread number rfl
      · rename_i outcome failed
        cases move
        refine .refused thread outcome rfl ?_
        cases outcome with
        | sequence number => exact absurd rfl (failed number)
        | _ => rfl
      · cases move

/-- What `write_async` does: `send` fails, or it succeeds, into a new queue if there is
none. -/
inductive Instance.Writes (own : Instance ρ τ) (payload : List UInt8) (fresh : τ) :
    Instance ρ τ → Prop
  | fails (thread : τ) (is : own.sender = some thread)
      (ended : (own.threads thread).stage = .ended) : Writes own payload fresh own
  | sends (thread : τ) (is : own.sender = some thread)
      (alive : (own.threads thread).stage ≠ .ended) : Writes own payload fresh (own.send thread payload)
  | creates (is : own.sender = none) (absent : (own.threads fresh).stage = .absent) :
      Writes own payload fresh ((own.create fresh).send fresh payload)

omit [DecidableEq ρ] in
theorem Instance.writes_of_writeAsync {own next : Instance ρ τ} {payload : List UInt8} {fresh : τ}
    (writes : own.writeAsync payload fresh = some next) : own.Writes payload fresh next := by
  unfold writeAsync at writes
  split at writes
  · rename_i thread is
    split at writes
    · rename_i ended
      cases writes
      exact .fails thread is ended
    · rename_i alive
      cases writes
      exact .sends thread is alive
  · rename_i is
    rw [Option.ite_none_right_eq_some] at writes
    obtain ⟨absent, writes⟩ := writes
    cases writes
    exact .creates is absent

section Steps

variable {closes : σ → Bool}

/-- What each choice does. -/
inductive Moves (closes : σ → Bool) (source : Whole ρ τ σ) : Choice ρ τ σ → Whole ρ τ σ → Prop
  | write (payload : List UInt8) (fresh : τ) (fits : payload.length ≤ source.core.msg.capacity)
      {own : Instance ρ τ} (writes : source.own.Writes payload fresh own) :
      Moves closes source (.write payload fresh) ⟨source.core, own⟩
  | thread (thread : τ) (choice : ThreadChoice) {taken : Option RsIpc.Choice} {next : Thread}
      (moves : ThreadMoves (source.own.sender != some thread) (source.core.pc (.thread thread))
        (source.own.threads thread) choice taken next)
      {core : State (Party ρ τ σ)} (took : (RsIpc.system (Party ρ τ σ) 65535 0).Took source.core
        (taken.map fun taken => (.thread thread, taken)) core) :
      Moves closes source (.thread thread choice) ⟨core, { source.own with
        threads := Function.update source.own.threads thread next
        lastWrittenSequence := choice.store (source.core.pc (.thread thread))
          source.own.lastWrittenSequence }⟩
  | reader (reader : ρ) (choice : ReaderChoice) {taken : Option RsIpc.Choice} {next : Reader}
      (moves : ReaderMoves source.core.msg (source.core.pc (.reader reader))
        (source.own.readers reader) choice taken next)
      {core : State (Party ρ τ σ)} (took : (RsIpc.system (Party ρ τ σ) 65535 0).Took source.core
        (taken.map fun taken => (.reader reader, taken)) core) :
      Moves closes source (.reader reader choice) ⟨core, { source.own with
        readers := Function.update source.own.readers reader next }⟩
  | stop (stopper : σ) {core : State (Party ρ τ σ)}
      (taken : source.core.step (.stopper stopper, .invoke .stop) = some core) :
      Moves closes source (.stop stopper) ⟨core, source.own⟩
  | stopping (stopper : σ) (spurious : Bool)
      (running : ∀ outcome, source.core.pc (.stopper stopper) ≠ .done outcome)
      {core : State (Party ρ τ σ)}
      (taken : source.core.step (.stopper stopper, if spurious then .spurious else .go) =
        some core) :
      Moves closes source (.stopping stopper spurious) ⟨core, source.own⟩
  | stopped (stopper : σ) (outcome : Outcome)
      (done : source.core.pc (.stopper stopper) = .done outcome) {core : State (Party ρ τ σ)}
      (taken : source.core.step (.stopper stopper, .go) = some core) :
      Moves closes source (.stopped stopper) ⟨core,
        if closes stopper = true then { source.own with sender := none } else source.own⟩

theorem moves_of_step {source target : Whole ρ τ σ} {choice : Choice ρ τ σ}
    (step : (system ρ τ closes).step source choice = some target) :
    Moves closes source choice target := by
  obtain ⟨targetCore, targetOwn⟩ := target
  obtain ⟨taken, moves, took⟩ := System.joint_took step
  cases choice with
  | write payload fresh =>
      simp only [client, Option.ite_none_right_eq_some] at moves
      obtain ⟨fits, moves⟩ := moves
      obtain ⟨own, writes, moves⟩ := Option.map_eq_some_iff.mp moves
      cases moves
      cases took
      exact .write payload fresh fits (Instance.writes_of_writeAsync writes)
  | thread thread choice =>
      obtain ⟨⟨taken, next⟩, move, moves⟩ := Option.map_eq_some_iff.mp moves
      cases moves
      exact .thread thread choice (threadMoves_of_move move) took
  | reader reader choice =>
      obtain ⟨⟨taken, next⟩, move, moves⟩ := Option.map_eq_some_iff.mp moves
      cases moves
      exact .reader reader choice (readerMoves_of_move move) took
  | stop stopper =>
      cases moves
      exact .stop stopper took
  | stopping stopper spurious =>
      obtain ⟨taken, runs, moves⟩ := Option.map_eq_some_iff.mp moves
      obtain ⟨running, rfl⟩ := proceed_eq_some_iff.mp runs
      cases moves
      exact .stopping stopper spurious running took
  | stopped stopper =>
      simp only [client] at moves
      split at moves
      · rename_i outcome done
        cases moves
        exact .stopped stopper outcome done took
      · cases moves

end Steps

end RsIpc.WriteAsync
