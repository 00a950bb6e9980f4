import RsIpc.Python.Progress
import RsIpc.Python.ReadAsync

/-!
# Reader threads over the stream

Some of the readers of `write_async` are `ReadAsync` instances: their threads read the
memory and queue what they have read.  Such an instance is a `ReadSync` instance with a
queue behind it, so what is known of the stream carries over.
-/

namespace RsIpc.ReaderThreads

open Transition WriteAsync
open ReadAsync (ReceiverQueueData)

universe u

/-- Where `new` and the reader thread are.  While the guard is there, and while it is
dropped, the thread has the number of the message and its data, or a panic instead. -/
inductive Stage
  | absent
  | registering
  | looping
  | copied (sequence : BitVec 64) (data : Option (List UInt8))
  | dropping (sequence : BitVec 64) (data : Option (List UInt8))
  | panicked (sequence : BitVec 64)
  | ended
  deriving DecidableEq

/-- A `ReadAsync` instance with its reader thread, the queue between them, and what the
caller has got from it. -/
structure Queued where
  stage : Stage
  lastReaderVersion : BitVec 64
  queue : List ReceiverQueueData
  lastReadSequence : BitVec 64
  returned : List ReceiverQueueData

inductive QueuedChoice
  | new
  | check
  | run (spurious : Bool)
  | copy
  | drop
  | finish
  | receive (block : Bool)
  deriving DecidableEq

/-- The thread that was the sender of the queue is gone. -/
def Stage.Closed : Stage → Prop
  | .ended | .panicked _ => True
  | _ => False

instance (stage : Stage) : Decidable stage.Closed :=
  match stage with
  | .ended | .panicked _ => .isTrue trivial
  | .absent | .registering | .looping | .copied _ _ | .dropping _ _ => .isFalse not_false

/-- The return of `add_reader`, of `read` without a guard, and of the drop of the guard.
The thread then queues what it has copied, or unwinds. -/
def Queued.finish (queued : Queued) (outcome : Outcome) : Queued :=
  match queued.stage with
  | .registering => { queued with stage := if outcome = .unit then .looping else .absent }
  | .dropping sequence (some data) =>
      { queued with
        stage := .looping
        lastReaderVersion := sequence
        queue := queued.queue ++ [⟨sequence, data⟩] }
  | .dropping sequence none => { queued with stage := .panicked sequence }
  | _ => queued

/-- `new` with `start_reader_thread`, the loop of the thread, and `read_async`.  The
instance is alive, so its end of the queue is open and `send` succeeds. -/
def Queued.move (queued : Queued) (msg : SharedMessage) (pc : Pc) :
    QueuedChoice → Option (Option RsIpc.Choice × Queued)
  | .new =>
      if queued.stage = .absent then
        some (some (.invoke .addReader), { queued with stage := .registering })
      else none
  | .check =>
      if queued.stage = .looping ∧ pc = .idle then
        if msg.isStopped = true then some (none, { queued with stage := .ended })
        else some (some (.invoke (.read queued.lastReaderVersion true)), queued)
      else none
  | .run spurious => (proceed pc spurious).map fun choice => (some choice, queued)
  | .copy =>
      match pc with
      | .readGuard sequence =>
          if queued.stage = .looping then
            some (none, { queued with stage := .copied sequence msg.dataRef })
          else none
      | _ => none
  | .drop =>
      match queued.stage with
      | .copied sequence data =>
          some (some .drop, { queued with stage := .dropping sequence data })
      | _ => none
  | .finish =>
      match pc with
      | .done outcome => some (some .go, queued.finish outcome)
      | _ => none
  | .receive block =>
      match queued.queue with
      | queueData :: rest =>
          some (none, { queued with
            queue := rest
            lastReadSequence := queueData.sequence
            returned := queued.returned ++ [queueData] })
      | [] => if queued.stage.Closed ∨ block = false then some (none, queued) else none

/-! ## The whole -/

/-- The instance that writes with the `ReadSync` readers, and the `ReadAsync` readers. -/
structure Instance (ρ τ : Type u) where
  base : WriteAsync.Instance ρ τ
  queued : ρ → Queued

inductive Choice (ρ τ σ : Type u)
  | base (choice : WriteAsync.Choice ρ τ σ)
  | queued (reader : ρ) (choice : QueuedChoice)
  deriving DecidableEq

variable {ρ τ σ : Type u}

/-- Nothing is constructed and nothing was written. -/
def Instance.start (ρ τ : Type u) : Instance ρ τ where
  base := .start ρ τ
  queued _ := ⟨.absent, 0, [], 0, []⟩

/-- The reader instance that a choice is about. -/
def reader? : WriteAsync.Choice ρ τ σ → Option ρ
  | .reader reader _ => some reader
  | _ => none

abbrev Whole (ρ τ σ : Type u) := Joint (State (Party ρ τ σ)) (Instance ρ τ)

variable [DecidableEq ρ] [DecidableEq τ] [DecidableEq σ]

/-- All of it.  `threads` tells the instances opened in `ReadAsync` mode from those
opened in `ReadSync` mode. -/
def client (closes : σ → Bool) (threads : ρ → Bool) :
    Client (State (Party ρ τ σ)) (Party ρ τ σ × RsIpc.Choice) (Instance ρ τ) (Choice ρ τ σ) :=
  fun core own choice =>
    match choice with
    | .base choice =>
        if (reader? choice).any threads = true then none
        else (WriteAsync.client closes core own.base choice).map
          fun move => (move.1, { own with base := move.2 })
    | .queued reader choice =>
        if threads reader = true then
          ((own.queued reader).move core.msg (core.pc (.reader reader)) choice).map
            fun move => (move.1.map fun taken => (.reader reader, taken),
              { own with queued := Function.update own.queued reader move.2 })
        else none

def system (ρ τ : Type u) {σ : Type u} [DecidableEq ρ] [DecidableEq τ] [DecidableEq σ]
    (closes : σ → Bool) (threads : ρ → Bool) : System (Whole ρ τ σ) (Choice ρ τ σ) :=
  (RsIpc.system (Party ρ τ σ) 65535 0).joint (client closes threads) (Instance.start ρ τ)

/-! ## A reader thread as a `ReadSync` reader -/

def Stage.plain : Stage → ReaderStage
  | .absent => .absent
  | .registering => .registering
  | .copied _ _ => .copied
  | .looping | .dropping _ _ | .panicked _ | .ended => .ready

/-- The payload that the thread has copied and not yet queued. -/
def Stage.copy : Stage → List (List UInt8)
  | .copied _ data | .dropping _ data => data.toList
  | _ => []

/-- The number that the thread was given last. -/
def Queued.version (queued : Queued) : BitVec 64 :=
  match queued.stage with
  | .copied sequence _ | .dropping sequence _ | .panicked sequence => sequence
  | _ => queued.lastReaderVersion

/-- What came through the queue, or waits in it. -/
def Queued.sent (queued : Queued) : List (List UInt8) :=
  (queued.returned ++ queued.queue).map ReceiverQueueData.data

def Queued.plain (queued : Queued) : Reader where
  stage := queued.stage.plain
  lastReadSequence := queued.version
  received := queued.sent ++ queued.stage.copy

def Instance.reader (own : Instance ρ τ) (threads : ρ → Bool) (reader : ρ) : Reader :=
  if threads reader = true then (own.queued reader).plain else own.base.readers reader

def Instance.plain (own : Instance ρ τ) (threads : ρ → Bool) : WriteAsync.Instance ρ τ :=
  { own.base with readers := own.reader threads }

/-- The same memory with `ReadSync` readers only. -/
def plain (threads : ρ → Bool) (state : Whole ρ τ σ) : WriteAsync.Whole ρ τ σ :=
  ⟨state.core, state.own.plain threads⟩

/-! ## Step by step -/

/-- A step of the thread or its caller is nothing to a `ReadSync` reader, or one step of
it, or the two steps with which `read_sync` stores the number and copies. -/
inductive Follows (msg : SharedMessage) (pc : Pc) (source : Reader) :
    Option RsIpc.Choice → Reader → Prop
  | stays : Follows msg pc source none source
  | moves (choice : ReaderChoice) {taken : Option RsIpc.Choice} {target : Reader}
      (move : source.move msg pc choice = some (taken, target)) : Follows msg pc source taken target
  | copies {middle target : Reader} (store : source.move msg pc .store = some (none, middle))
      (copy : middle.move msg pc .copy = some (none, target)) : Follows msg pc source none target

/-- The return of a call, in either mode. -/
theorem Queued.plain_finish (queued : Queued) (outcome : Outcome) :
    (queued.finish outcome).plain =
      { queued.plain with stage := queued.plain.stage.finish outcome } := by
  obtain ⟨stage, lastReaderVersion, queue, lastReadSequence, returned⟩ := queued
  cases stage with
  | registering => cases outcome <;> rfl
  | dropping sequence data =>
      cases data with
      | none => rfl
      | some data => simp [Queued.finish, Queued.plain, Queued.sent, Queued.version, Stage.plain,
          Stage.copy, ReaderStage.finish]
  | absent | looping | copied _ _ | panicked _ | ended => rfl

theorem Queued.follows {queued next : Queued} {msg : SharedMessage} {pc : Pc}
    {choice : QueuedChoice} {taken : Option RsIpc.Choice}
    (move : queued.move msg pc choice = some (taken, next)) :
    Follows msg pc queued.plain taken next.plain := by
  obtain ⟨stage, lastReaderVersion, queue, lastReadSequence, returned⟩ := queued
  cases choice with
  | new =>
      simp only [Queued.move, Option.ite_none_right_eq_some] at move
      obtain ⟨rfl, move⟩ := move
      cases move
      exact .moves .new rfl
  | check =>
      simp only [Queued.move, Option.ite_none_right_eq_some] at move
      obtain ⟨⟨rfl, _⟩, move⟩ := move
      split at move
      · cases move
        exact .stays
      · cases move
        exact .moves (.read true) rfl
  | run spurious =>
      obtain ⟨call, proceeds, move⟩ := Option.map_eq_some_iff.mp move
      cases move
      refine .moves (.run spurious) ?_
      simp only [Reader.move, proceeds, Option.map_some]
  | copy =>
      simp only [Queued.move] at move
      split at move
      · rename_i sequence
        rw [Option.ite_none_right_eq_some] at move
        obtain ⟨rfl, move⟩ := move
        cases move
        refine @Follows.copies _ _ _ ⟨.stored, sequence, _⟩ _ rfl ?_
        simp [Reader.move, Queued.plain, Queued.sent, Queued.version, Stage.plain, Stage.copy]
      · cases move
  | drop =>
      simp only [Queued.move] at move
      split at move
      · rename_i sequence data
        cases move
        exact .moves .drop rfl
      · cases move
  | finish =>
      simp only [Queued.move] at move
      split at move
      · rename_i outcome
        cases move
        refine .moves .finish ?_
        rw [Queued.plain_finish]
        rfl
      · cases move
  | receive block =>
      simp only [Queued.move] at move
      split at move
      · rename_i queueData rest
        cases move
        have same : (Queued.plain ⟨stage, lastReaderVersion, rest, queueData.sequence,
            returned ++ [queueData]⟩) =
              Queued.plain ⟨stage, lastReaderVersion, queueData :: rest, lastReadSequence, returned⟩ := by
          simp [Queued.plain, Queued.sent, Queued.version]
        rw [same]
        exact .stays
      · rw [Option.ite_none_right_eq_some] at move
        cases move.2
        exact .stays

/-! ## The whole, step by step -/

section Steps

variable {closes : σ → Bool} {threads : ρ → Bool}

omit [DecidableEq τ] in
theorem Instance.plain_update (own : Instance ρ τ) {reader : ρ} (here : threads reader = true)
    (next : Queued) :
    ({ own with queued := Function.update own.queued reader next } : Instance ρ τ).plain threads =
      { own.plain threads with
        readers := Function.update (own.reader threads) reader next.plain } := by
  refine congrArg (fun readers => ({ own.base with readers := readers } : WriteAsync.Instance ρ τ))
    (funext fun other => ?_)
  by_cases is : other = reader
  · subst is
    simp [Instance.reader, here]
  · simp [Instance.reader, Function.update_of_ne is]

omit [DecidableEq τ] in
theorem Instance.plain_update_base (own : Instance ρ τ) {reader : ρ}
    (other : threads reader = false) (next : Reader) :
    ({ own with base := { own.base with
      readers := Function.update own.base.readers reader next } } : Instance ρ τ).plain threads =
      { own.plain threads with
        readers := Function.update (own.reader threads) reader next } := by
  refine congrArg (fun readers => ({ own.base with readers := readers } : WriteAsync.Instance ρ τ))
    (funext fun one => ?_)
  by_cases is : one = reader
  · subst is
    simp [Instance.reader, other]
  · simp [Instance.reader, Function.update_of_ne is]

omit [DecidableEq ρ] in
theorem Instance.plain_writeAsync (own : Instance ρ τ) (payload : List UInt8) (fresh : τ) :
    (own.plain threads).writeAsync payload fresh = (own.base.writeAsync payload fresh).map
      fun base => ({ own with base := base } : Instance ρ τ).plain threads := by
  obtain ⟨⟨sender, lastWrittenSequence, writers, readers, accepted⟩, queued⟩ := own
  cases sender with
  | none =>
      by_cases absent : (writers fresh).stage = .absent
      · simp [WriteAsync.Instance.writeAsync, Instance.plain, absent]
        rfl
      · simp [WriteAsync.Instance.writeAsync, Instance.plain, absent]
  | some thread =>
      by_cases ended : (writers thread).stage = .ended
      · simp [WriteAsync.Instance.writeAsync, Instance.plain, ended]
      · simp [WriteAsync.Instance.writeAsync, Instance.plain, ended]
        rfl

omit [DecidableEq σ] in
/-- What is not about a reader thread goes on as before. -/
theorem Instance.plain_client {core : State (Party ρ τ σ)} (own : Instance ρ τ)
    {choice : WriteAsync.Choice ρ τ σ} (other : (reader? choice).any threads = false) :
    WriteAsync.client closes core (own.plain threads) choice =
      (WriteAsync.client closes core own.base choice).map fun move =>
        (move.1, ({ own with base := move.2 } : Instance ρ τ).plain threads) := by
  cases choice with
  | write payload fresh =>
      simp only [WriteAsync.client, Instance.plain_writeAsync]
      by_cases fits : payload.length ≤ core.msg.capacity
      · simp only [if_pos fits, Option.map_map]
        rfl
      · simp only [if_neg fits, Option.map_none]
  | thread thread choice =>
      simp only [WriteAsync.client, Option.map_map]
      rfl
  | reader reader choice =>
      have sync : threads reader = false := other
      have same : (own.plain threads).readers reader = own.base.readers reader :=
        if_neg (Bool.eq_false_iff.mp sync)
      simp only [WriteAsync.client, Option.map_map, same]
      refine congrArg (fun next => Option.map next _) (funext fun move => ?_)
      exact congrArg (Prod.mk _) (own.plain_update_base sync move.2).symm
  | stop stopper => rfl
  | stopping stopper spurious =>
      simp only [WriteAsync.client, Option.map_map]
      rfl
  | stopped stopper =>
      simp only [WriteAsync.client]
      cases core.pc (.stopper stopper) with
      | done outcome => cases closes stopper <;> rfl
      | _ => rfl

/-! ## Runs -/

/-- All readers are constructed before the first payload is written. -/
def AllRegistered (threads : ρ → Bool) : StepCondition (Whole ρ τ σ) (Choice ρ τ σ) :=
  fun source choice _ =>
    match choice with
    | .base (.write _ _) => ∀ reader, (source.own.reader threads reader).stage.Registered
    | _ => True

instance [Fintype ρ] (source : Whole ρ τ σ) (choice : Choice ρ τ σ) (target : Whole ρ τ σ) :
    Decidable (AllRegistered threads source choice target) :=
  match choice with
  | .base (.write _ _) => Fintype.decidableForallFintype
  | .base (.thread _ _) | .base (.reader _ _) | .base (.stop _) | .base (.stopping _ _)
  | .base (.stopped _) | .queued _ _ => .isTrue trivial

variable {coreOk : StepCondition (State (Party ρ τ σ)) (Party ρ τ σ × RsIpc.Choice)}

/-- Moreover the steps of the memory meet a condition. -/
def Meets (closes : σ → Bool) (threads : ρ → Bool)
    (coreOk : StepCondition (State (Party ρ τ σ)) (Party ρ τ σ × RsIpc.Choice)) :
    StepCondition (Whole ρ τ σ) (Choice ρ τ σ) :=
  fun source choice target => AllRegistered threads source choice target ∧
    System.OnCore (client closes threads) coreOk source choice target

instance [Fintype ρ] [∀ source label target, Decidable (coreOk source label target)]
    (source : Whole ρ τ σ) (choice : Choice ρ τ σ) (target : Whole ρ τ σ) :
    Decidable (Meets closes threads coreOk source choice target) :=
  inferInstanceAs (Decidable (_ ∧ _))

/-- The same for `ReadSync` readers only. -/
def PlainMeets (closes : σ → Bool)
    (coreOk : StepCondition (State (Party ρ τ σ)) (Party ρ τ σ × RsIpc.Choice)) :
    StepCondition (WriteAsync.Whole ρ τ σ) (WriteAsync.Choice ρ τ σ) :=
  fun source choice target => WriteAsync.AllRegistered source choice target ∧
    System.OnCore (WriteAsync.client closes) coreOk source choice target

theorem plainMeets_reader {core target : State (Party ρ τ σ)} {inst : WriteAsync.Instance ρ τ}
    {reader : ρ} {choice : ReaderChoice} {taken : Option RsIpc.Choice} {next : Reader}
    (reachable : (WriteAsync.system ρ τ closes).ReachableVia (PlainMeets closes coreOk) ⟨core, inst⟩)
    (move : (inst.readers reader).move core.msg (core.pc (.reader reader)) choice =
      some (taken, next))
    (took : (memory ρ τ σ).Took core (taken.map fun taken => (.reader reader, taken)) target)
    (meets : ∀ call, taken = some call → coreOk core (.reader reader, call) target) :
    (WriteAsync.system ρ τ closes).ReachableVia (PlainMeets closes coreOk)
      ⟨target, { inst with readers := Function.update inst.readers reader next }⟩ := by
  have moves : WriteAsync.client closes core inst (.reader reader choice) =
      some (taken.map fun taken => (.reader reader, taken),
        { inst with readers := Function.update inst.readers reader next }) := by
    simp only [WriteAsync.client, move, Option.map_some]
  refine reachable.step (System.step_joint moves took) ⟨trivial, ?_⟩
  intro move chosen label takes
  rw [moves] at chosen
  cases chosen
  obtain ⟨call, is, rfl⟩ := Option.map_eq_some_iff.mp takes
  exact meets call is

/-- The stream with reader threads runs as one with `ReadSync` readers only. -/
theorem plain_of_reachable {state : Whole ρ τ σ}
    (reachable : (system ρ τ closes threads).ReachableVia (Meets closes threads coreOk) state) :
    (WriteAsync.system ρ τ closes).ReachableVia (PlainMeets closes coreOk) (plain threads state) := by
  refine reachable.invariant (fun state => (WriteAsync.system ρ τ closes).ReachableVia
    (PlainMeets closes coreOk) (plain threads state)) ?_ ?_
  · rintro ⟨core, own⟩ ⟨fresh, rfl⟩
    refine .initial ⟨fresh, ?_⟩
    have absent : (Instance.start ρ τ).reader threads = fun _ => ⟨.absent, 0, []⟩ := by
      funext reader
      exact ite_self _
    simp only [plain, Instance.plain, absent]
    rfl
  · rintro ⟨core, own⟩ choice ⟨target, next⟩ _ plainly step meets
    obtain ⟨taken, moves, took⟩ := System.joint_took step
    have onCore := fun label is => meets.2 _ moves label is
    cases choice with
    | base choice =>
        simp only [client, Option.ite_none_left_eq_some, Bool.not_eq_true] at moves
        obtain ⟨other, moves⟩ := moves
        obtain ⟨⟨call, base⟩, baseMoves, is⟩ := Option.map_eq_some_iff.mp moves
        cases is
        have plainMoves := @Instance.plain_client _ _ _ _ _ closes _ core own _ other
        rw [baseMoves, Option.map_some] at plainMoves
        refine plainly.step (System.step_joint plainMoves took) ⟨?_, ?_⟩
        · cases choice with
          | write payload fresh => exact meets.1
          | _ => trivial
        · intro move chosen label takes
          change WriteAsync.client closes core (own.plain threads) choice = some move at chosen
          rw [plainMoves] at chosen
          cases chosen
          exact onCore label takes
    | queued reader choice =>
        simp only [client, Option.ite_none_right_eq_some] at moves
        obtain ⟨here, moves⟩ := moves
        obtain ⟨⟨call, queued⟩, move, is⟩ := Option.map_eq_some_iff.mp moves
        cases is
        have follows := Queued.follows move
        have is : (own.plain threads).readers reader = (own.queued reader).plain := if_pos here
        simp only [plain, Instance.plain_update own here queued]
        rw [← is] at follows
        generalize queued.plain = after at follows ⊢
        cases follows with
        | stays =>
            cases (show target = core from took)
            have same := Function.update_eq_self reader (own.reader threads)
            exact same.symm ▸ plainly
        | moves choice move =>
            refine plainMeets_reader plainly move took fun call taken => onCore _ ?_
            rw [taken]
            rfl
        | copies store copy =>
            have stored := plainMeets_reader plainly store (show core = core from rfl)
              fun _ is => by cases is
            have copied := plainMeets_reader stored
              (by simpa only [Function.update_self] using copy) took fun _ is => by cases is
            simp only [Function.update_idem] at copied
            exact copied

end Steps

end RsIpc.ReaderThreads
