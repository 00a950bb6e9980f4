import RsIpc.Python.WriteAsync
import RsIpc.SharedMessage.Membership
import RsIpc.SharedMessage.Rest

/-!
# The life of an instance

Instances of `SharedMessage` in any number of processes share one memory, each through a
mapping of its own.  An instance registers when it is constructed and leaves when it is
dropped, calls and guard objects hold references to it, and a background thread holds
its mapping.  `__exit__` of a guard object gives the reference up before it drops the
guard.
-/

namespace RsIpc

universe u

/-! ## `add_reader` and `remove_reader` -/

/-- The points of the two calls that change who is registered. -/
def Pc.enlists : Pc → Bool
  | .update .addReader | .cas .addReader _ | .update .removeReader | .cas .removeReader _ => true
  | _ => false

theorem WaitSite.enlists_resume (site : WaitSite) (ticket : Nat) :
    site.resume.enlists = (Pc.parked site ticket).enlists := by
  cases site <;> rfl

theorem WaitSite.returns_resume (site : WaitSite) (ticket : Nat) :
    decide (site.resume = .done .unit) = decide (Pc.parked site ticket = .done .unit) := by
  cases site <;> rfl

theorem Pc.Updating.enlists_eq {pc : Pc} {site : UpdateSite} (at_ : pc.Updating site) :
    pc.enlists = (Pc.update site).enlists := by
  rcases at_ with rfl | ⟨packed, rfl⟩ <;> cases site <;> rfl

/-- The two calls are entered at their start only. -/
theorem Takes.enlists {msg : SharedMessage} {pc : Pc} {act : Act} (takes : Takes msg pc act)
    (enlists : act.pc.enlists = true) : pc.enlists = true ∨ pc = .idle := by
  cases takes with
  | invoke operation => exact .inr rfl
  | compute site at_ =>
      left
      rw [at_.enlists_eq]
      cases site <;> first | rfl | cases enlists
  | waitReturns site ticket spins changed | wakeUp site ticket =>
      cases site <;> cases enlists
  | wake site => cases site <;> cases enlists
  | update site policy run =>
      cases site with
      | release sequence =>
          simp only [UpdateSite.after] at enlists
          split at enlists <;> cases enlists
      | _ => cases enlists
  | _ => cases enlists

theorem Takes.enlists_of_event {msg : SharedMessage} {pc : Pc} {act : Act}
    (takes : Takes msg pc act) (event : act.event = some .joined ∨ act.event = some .left) :
    pc.enlists = true := by
  cases takes.record with
  | joined at_ | left at_ =>
      rw [at_]
      rfl
  | silent none =>
      rw [none] at event
      rcases event with is | is <;> cases is
  | published size at_ is | admitted lastSeenSeq block sequence at_ down same is
  | ended lastSeenSeq block ticket at_ stopped same is =>
      rw [is] at event
      rcases event with is | is <;> cases is
  | released sequence at_ effect is =>
      rw [is] at event
      rcases event with is | is <;> cases is

/-- Nobody else changes the count of consumers. -/
theorem Takes.consumers_kept {msg : SharedMessage} {pc : Pc} {act : Act} (takes : Takes msg pc act)
    (quiet : pc.enlists = false) :
    (act.effect.apply msg).getReaderState.consumers = msg.getReaderState.consumers := by
  rcases takes.membership with ⟨same, _⟩ | ⟨_, joined, _⟩ | ⟨_, left, _⟩
  · exact same
  · exact absurd (takes.enlists_of_event (.inl joined)) (Bool.eq_false_iff.mp quiet)
  · exact absurd (takes.enlists_of_event (.inr left)) (Bool.eq_false_iff.mp quiet)

theorem Takes.consumers_joined {msg : SharedMessage} {pc : Pc} {act : Act}
    (takes : Takes msg pc act) (joined : act.event = some .joined) :
    (act.effect.apply msg).getReaderState.consumers.toNat =
      msg.getReaderState.consumers.toNat + 1 := by
  rcases takes.membership with ⟨_, notJoined, _⟩ | ⟨_, _, words⟩ | ⟨_, left, _⟩
  · exact absurd joined notJoined
  · exact words
  · cases joined.symm.trans left

theorem Takes.consumers_left {msg : SharedMessage} {pc : Pc} {act : Act}
    (takes : Takes msg pc act) (left : act.event = some .left) :
    (act.effect.apply msg).getReaderState.consumers.toNat + 1 =
      msg.getReaderState.consumers.toNat := by
  rcases takes.membership with ⟨_, _, notLeft⟩ | ⟨_, joined, _⟩ | ⟨_, _, words⟩
  · exact absurd left notLeft
  · cases left.symm.trans joined
  · exact words

theorem Takes.consumers_silent {msg : SharedMessage} {pc : Pc} {act : Act}
    (takes : Takes msg pc act) (silent : act.event = none) :
    (act.effect.apply msg).getReaderState.consumers = msg.getReaderState.consumers := by
  rcases takes.membership with ⟨same, _⟩ | ⟨_, joined, _⟩ | ⟨_, left, _⟩
  · exact same
  · cases silent.symm.trans joined
  · cases silent.symm.trans left

/-- Either call returns with the step that changes the count, or goes on, or panics. -/
theorem Takes.enlisting {msg : SharedMessage} {pc : Pc} {act : Act} (takes : Takes msg pc act)
    {site : UpdateSite} (membership : site = .addReader ∨ site = .removeReader)
    (at_ : pc.Updating site) :
    act.event = site.event ∧ act.pc = .done .unit ∨
      act.event = none ∧ (act.pc.Updating site ∨ act.pc = .done .panicked) := by
  cases takes with
  | panic other at_ member => exact .inr ⟨rfl, .inr rfl⟩
  | unchanged size other same | unchangedTarget count other same =>
      rcases membership with rfl | rfl <;> rcases at_ with rfl | ⟨packed, rfl⟩ <;>
        rcases other with is | ⟨_, is⟩ <;> cases is
  | compute other site_ =>
      have same : other = site := by
        rcases at_ with rfl | ⟨packed, rfl⟩ <;> rcases site_ with is | ⟨_, is⟩ <;> cases is <;> rfl
      subst same
      exact .inr ⟨rfl, .inl (.inr ⟨_, rfl⟩)⟩
  | update other policy run =>
      have same : other = site := by
        rcases at_ with is | ⟨packed, is⟩ <;> cases is
        rfl
      subst same
      rcases membership with rfl | rfl <;> exact .inl ⟨rfl, rfl⟩
  | _ => rcases at_ with is | ⟨packed, is⟩ <;> cases is

/-- `remove_reader` panics only if there is nobody to remove. -/
theorem consumers_eq_zero_of_panicked {msg : SharedMessage} {choice : Choice} {pc : Pc} {act : Act}
    (step : next msg choice pc = some act) (at_ : pc.Updating .removeReader)
    (panicked : act.pc = .done .panicked) : msg.getReaderState.consumers = 0 := by
  have refused : UpdateSite.removeReader.mutator.run msg.getReaderState = none →
      msg.getReaderState.consumers = 0 := by
    intro none
    by_contra some
    rw [UpdateSite.mutator, Mutator.run, if_neg some] at none
    cases none
  have attempts : attempt .removeReader msg.readersState = act →
      msg.getReaderState.consumers = 0 := by
    rintro rfl
    unfold attempt at panicked
    split at panicked
    · rename_i none
      exact refused none
    · split at panicked <;> cases panicked
  rcases at_ with rfl | ⟨packed, rfl⟩
  · cases choice with
    | go => exact attempts (Option.some.inj step)
    | _ => cases step
  · have cas : ∀ spurious, casStep msg .removeReader packed spurious = act →
        msg.getReaderState.consumers = 0 := by
      rintro spurious rfl
      unfold casStep at panicked attempts
      split at panicked
      · rename_i found
        split at panicked
        · rename_i none
          rw [← found.2] at none
          exact refused none
        · cases panicked
      · rename_i lost
        rw [if_neg lost] at attempts
        exact attempts rfl
    cases choice with
    | go => exact cas false (Option.some.inj step)
    | spurious => exact cas true (Option.some.inj step)
    | _ => cases step

end RsIpc

namespace RsIpc.Lifetime

open Transition Protocol
open WriteAsync (proceed)

universe u

inductive OperationMode
  | createOnly
  | readSync
  | readAsync
  | writeSync
  | writeAsync
  deriving DecidableEq

def OperationMode.canRead : OperationMode → Bool
  | .readSync | .readAsync => true
  | _ => false

def OperationMode.canWrite : OperationMode → Bool
  | .writeSync | .writeAsync => true
  | _ => false

/-- What an instance opened in this mode calls.  A call that `check_read_permission` or
`check_write_permission` refuses panics before it reaches the memory. -/
def OperationMode.permits (mode : OperationMode) : Operation → Bool
  | .read _ _ => mode.canRead
  | .writeSlice _ | .write => mode.canWrite
  | .stop => true
  | .setTargetReadCount _ | .addReader | .removeReader => false

/-- Instances, their background threads, and calls on them with the guards they return. -/
inductive Party (ω γ : Type u)
  | object (object : ω)
  | thread (object : ω)
  | call (call : γ)
  deriving DecidableEq

/-! ## Instances -/

/-- From `new` to the end of `drop`. -/
inductive Stage
  | absent
  | registering
  | alive
  | dropping
  | unregistering
  | dropped
  deriving DecidableEq

/-- An instance, the references that Python code has to it, not counting calls in
progress and guard objects, and whether it has a background thread. -/
structure Object where
  stage : Stage
  mode : OperationMode
  references : Nat
  thread : Bool

inductive ObjectChoice
  | new (mode : OperationMode)
  | run (spurious : Bool)
  | finish
  | share
  | forget
  | collect
  | unregister
  | spawn
  | ends
  deriving DecidableEq

/-- `add_reader` or `remove_reader` has returned, or panicked. -/
def Object.finish (object : Object) (outcome : Outcome) : Object :=
  match object.stage with
  | .registering =>
      if outcome = .unit then
        { object with
          stage := .alive
          references := 1
          thread := object.thread || decide (object.mode = .readAsync) }
      else { object with stage := .dropped }
  | .unregistering => { object with stage := .dropped }
  | _ => object

/-- `new`, `drop`, and what Python and the background thread do in between.  Once its
last reference is gone the instance is dropped. -/
def Object.move (object : Object) (uses : Nat) (pc threadPc : Pc) :
    ObjectChoice → Option (Option RsIpc.Choice × Object)
  | .new mode =>
      if object.stage = .absent then
        if mode.canRead = true then
          some (some (.invoke .addReader), { object with stage := .registering, mode := mode })
        else some (none, { object with stage := .alive, mode := mode, references := 1 })
      else none
  | .run spurious => (proceed pc spurious).map fun choice => (some choice, object)
  | .finish =>
      match pc with
      | .done outcome => some (some .go, object.finish outcome)
      | _ => none
  | .share =>
      if 0 < object.references then
        some (none, { object with references := object.references + 1 })
      else none
  | .forget =>
      if 0 < object.references then
        some (none, { object with references := object.references - 1 })
      else none
  | .collect =>
      if object.stage = .alive ∧ uses = 0 then some (none, { object with stage := .dropping })
      else none
  | .unregister =>
      if object.stage = .dropping then
        if object.mode.canRead = true then
          some (some (.invoke .removeReader), { object with stage := .unregistering })
        else some (none, { object with stage := .dropped })
      else none
  | .spawn =>
      if object.stage = .alive ∧ object.mode = .writeAsync then
        some (none, { object with thread := true })
      else none
  | .ends => if threadPc = .idle then some (none, { object with thread := false }) else none

/-- The mapping goes with the last of the instance and its thread. -/
def Object.Mapped (object : Object) : Prop :=
  object.stage ≠ .absent ∧ object.stage ≠ .dropped ∨ object.thread = true

instance (object : Object) : Decidable object.Mapped :=
  inferInstanceAs (Decidable (_ ∨ _))

/-! ## Calls and guard objects -/

/-- A call on an instance, a guard object that refers to it, and a guard object that has
given its reference up and drops its guard, where `last` tells whether it was the last. -/
inductive CallStage (ω : Type u)
  | free
  | calling (object : ω)
  | guarding (object : ω)
  | leaving (object : ω) (last : Bool)
  deriving DecidableEq

inductive CallChoice (ω : Type u)
  | invoke (object : ω) (operation : Operation)
  | run (spurious : Bool)
  | store (index : Nat) (byte : UInt8)
  | keep
  | publish (size : Nat)
  | drop
  | exit
  | release
  | finish
  deriving DecidableEq

variable {ω γ : Type u} [DecidableEq ω] [DecidableEq γ]

def CallStage.holds (object : ω) : CallStage ω → Bool
  | .calling other | .guarding other => other = object
  | _ => false

/-- `read_guard` and `write_guard` keep the guard and refer to the instance; the other
calls drop theirs.  `publish` takes the guard and gives the reference up at its end;
`__exit__` gives it up first, and if it is the last one the instance is dropped before
the guard. -/
def CallStage.move (stage : CallStage ω) (objects : ω → Object) (uses : ω → Nat) (pc : Pc) :
    CallChoice ω → Option (Option RsIpc.Choice × CallStage ω)
  | .invoke object operation =>
      if stage = .free ∧ (objects object).stage = .alive ∧ 0 < (objects object).references ∧
          (objects object).mode.permits operation = true then
        some (some (.invoke operation), .calling object)
      else none
  | .run spurious => (proceed pc spurious).map fun choice => (some choice, stage)
  | .store index byte =>
      match stage with
      | .guarding object => some (some (.store index byte), .guarding object)
      | _ => none
  | .keep =>
      match stage, pc with
      | .calling object, .readGuard _ | .calling object, .writeGuard =>
          some (none, .guarding object)
      | _, _ => none
  | .publish size =>
      match stage with
      | .guarding object => some (some (.publish size), .calling object)
      | _ => none
  | .drop =>
      match stage, pc with
      | .calling object, .readGuard _ => some (some .drop, .calling object)
      | _, _ => none
  | .exit =>
      match stage with
      | .guarding object => some (none, .leaving object (decide (uses object = 1)))
      | _ => none
  | .release =>
      match stage with
      | .leaving object last =>
          if last = true → (objects object).stage = .dropped then
            some (some .drop, .leaving object last)
          else none
      | _ => none
  | .finish =>
      match pc with
      | .done _ => some (some .go, .free)
      | _ => none

/-! ## The whole -/

structure Instances (ω γ : Type u) where
  objects : ω → Object
  calls : γ → CallStage ω

/-- The reference count of an instance. -/
def Instances.uses [Fintype γ] (own : Instances ω γ) (object : ω) : Nat :=
  (own.objects object).references + count fun call => (own.calls call).holds object = true

def Instances.start (ω γ : Type u) : Instances ω γ where
  objects _ := ⟨.absent, .createOnly, 0, false⟩
  calls _ := .free

abbrev Whole (ω γ : Type u) := Joint (State (Party ω γ)) (Instances ω γ)

inductive Choice (ω γ : Type u)
  | object (object : ω) (choice : ObjectChoice)
  | thread (object : ω) (choice : RsIpc.Choice)
  | call (call : γ) (choice : CallChoice ω)
  deriving DecidableEq

/-- What a background thread does while it is there: any calls that the mode permits. -/
def Object.threadCalls (object : Object) : RsIpc.Choice → Bool
  | .invoke operation => object.thread && object.mode.permits operation
  | _ => true

def client [Fintype γ] : Client (State (Party ω γ)) (Party ω γ × RsIpc.Choice) (Instances ω γ) (Choice ω γ) :=
  fun core own choice =>
    match choice with
    | .object object choice =>
        ((own.objects object).move (own.uses object) (core.pc (.object object))
          (core.pc (.thread object)) choice).map fun move =>
            (move.1.map fun taken => (.object object, taken),
              { own with objects := Function.update own.objects object move.2 })
    | .thread object choice =>
        if (own.objects object).threadCalls choice = true then
          some (some (.thread object, choice), own)
        else none
    | .call call choice =>
        ((own.calls call).move own.objects own.uses (core.pc (.call call)) choice).map fun move =>
          (move.1.map fun taken => (.call call, taken),
            { own with calls := Function.update own.calls call move.2 })

/-- Memory with any wait policy and no reader yet. -/
def system (ω γ : Type u) [DecidableEq ω] [DecidableEq γ] [Fintype γ] (targetRead : BitVec 16) :
    System (Whole ω γ) (Choice ω γ) :=
  (RsIpc.system (Party ω γ) targetRead 0).joint client (Instances.start ω γ)

/-! ## The steps -/

/-- What an instance does, and the step of the memory that it takes for it. -/
inductive ObjectMoves (object : Object) (uses : Nat) (pc threadPc : Pc) :
    ObjectChoice → Option RsIpc.Choice → Object → Prop
  | register (mode : OperationMode) (absent : object.stage = .absent)
      (reads : mode.canRead = true) :
      ObjectMoves object uses pc threadPc (.new mode) (some (.invoke .addReader))
        { object with stage := .registering, mode := mode }
  | create (mode : OperationMode) (absent : object.stage = .absent)
      (readsNot : mode.canRead = false) :
      ObjectMoves object uses pc threadPc (.new mode) none
        { object with stage := .alive, mode := mode, references := 1 }
  | run (spurious : Bool) (running : ∀ outcome, pc ≠ .done outcome) :
      ObjectMoves object uses pc threadPc (.run spurious)
        (some (if spurious then .spurious else .go)) object
  | finish (outcome : Outcome) (done : pc = .done outcome) :
      ObjectMoves object uses pc threadPc .finish (some .go) (object.finish outcome)
  | share (referred : 0 < object.references) :
      ObjectMoves object uses pc threadPc .share none
        { object with references := object.references + 1 }
  | forget (referred : 0 < object.references) :
      ObjectMoves object uses pc threadPc .forget none
        { object with references := object.references - 1 }
  | collect (alive : object.stage = .alive) (unused : uses = 0) :
      ObjectMoves object uses pc threadPc .collect none { object with stage := .dropping }
  | unregister (dropping : object.stage = .dropping) (reads : object.mode.canRead = true) :
      ObjectMoves object uses pc threadPc .unregister (some (.invoke .removeReader))
        { object with stage := .unregistering }
  | drop (dropping : object.stage = .dropping) (readsNot : object.mode.canRead = false) :
      ObjectMoves object uses pc threadPc .unregister none { object with stage := .dropped }
  | spawn (alive : object.stage = .alive) (writes : object.mode = .writeAsync) :
      ObjectMoves object uses pc threadPc .spawn none { object with thread := true }
  | ends (resting : threadPc = .idle) :
      ObjectMoves object uses pc threadPc .ends none { object with thread := false }

theorem objectMoves_of_move {object next : Object} {uses : Nat} {pc threadPc : Pc}
    {choice : ObjectChoice} {taken : Option RsIpc.Choice}
    (move : object.move uses pc threadPc choice = some (taken, next)) :
    ObjectMoves object uses pc threadPc choice taken next := by
  cases choice with
  | new mode =>
      simp only [Object.move, Option.ite_none_right_eq_some] at move
      obtain ⟨absent, move⟩ := move
      split at move
      · rename_i reads
        cases move
        exact .register mode absent reads
      · rename_i readsNot
        cases move
        exact .create mode absent (Bool.eq_false_iff.mpr readsNot)
  | run spurious =>
      obtain ⟨call, proceeds, is⟩ := Option.map_eq_some_iff.mp move
      cases is
      obtain ⟨running, rfl⟩ := WriteAsync.proceed_eq_some_iff.mp proceeds
      exact .run spurious running
  | finish =>
      simp only [Object.move] at move
      split at move
      · rename_i outcome
        cases move
        exact .finish outcome rfl
      · cases move
  | share =>
      simp only [Object.move, Option.ite_none_right_eq_some] at move
      obtain ⟨referred, move⟩ := move
      cases move
      exact .share referred
  | forget =>
      simp only [Object.move, Option.ite_none_right_eq_some] at move
      obtain ⟨referred, move⟩ := move
      cases move
      exact .forget referred
  | collect =>
      simp only [Object.move, Option.ite_none_right_eq_some] at move
      obtain ⟨⟨alive, unused⟩, move⟩ := move
      cases move
      exact .collect alive unused
  | unregister =>
      simp only [Object.move, Option.ite_none_right_eq_some] at move
      obtain ⟨dropping, move⟩ := move
      split at move
      · rename_i reads
        cases move
        exact .unregister dropping reads
      · rename_i readsNot
        cases move
        exact .drop dropping (Bool.eq_false_iff.mpr readsNot)
  | spawn =>
      simp only [Object.move, Option.ite_none_right_eq_some] at move
      obtain ⟨⟨alive, writes⟩, move⟩ := move
      cases move
      exact .spawn alive writes
  | ends =>
      simp only [Object.move, Option.ite_none_right_eq_some] at move
      obtain ⟨idle, move⟩ := move
      cases move
      exact .ends idle

/-- What a call or a guard object does, and the step of the memory that it takes for it. -/
inductive CallMoves (objects : ω → Object) (uses : ω → Nat) (pc : Pc) :
    CallStage ω → CallChoice ω → Option RsIpc.Choice → CallStage ω → Prop
  | invoke (object : ω) (operation : Operation) (alive : (objects object).stage = .alive)
      (permitted : (objects object).mode.permits operation = true) :
      CallMoves objects uses pc .free (.invoke object operation) (some (.invoke operation))
        (.calling object)
  | run (stage : CallStage ω) (spurious : Bool) (running : ∀ outcome, pc ≠ .done outcome) :
      CallMoves objects uses pc stage (.run spurious) (some (if spurious then .spurious else .go))
        stage
  | store (object : ω) (index : Nat) (byte : UInt8) :
      CallMoves objects uses pc (.guarding object) (.store index byte) (some (.store index byte))
        (.guarding object)
  | keep (object : ω) : CallMoves objects uses pc (.calling object) .keep none (.guarding object)
  | publish (object : ω) (size : Nat) :
      CallMoves objects uses pc (.guarding object) (.publish size) (some (.publish size))
        (.calling object)
  | drop (object : ω) : CallMoves objects uses pc (.calling object) .drop (some .drop)
      (.calling object)
  | exit (object : ω) : CallMoves objects uses pc (.guarding object) .exit none
      (.leaving object (decide (uses object = 1)))
  | release (object : ω) (last : Bool) (waits : last = true → (objects object).stage = .dropped) :
      CallMoves objects uses pc (.leaving object last) .release (some .drop) (.leaving object last)
  | finish (stage : CallStage ω) (outcome : Outcome) (done : pc = .done outcome) :
      CallMoves objects uses pc stage .finish (some .go) .free

theorem callMoves_of_move {stage next : CallStage ω} {objects : ω → Object} {uses : ω → Nat}
    {pc : Pc} {choice : CallChoice ω} {taken : Option RsIpc.Choice}
    (move : stage.move objects uses pc choice = some (taken, next)) :
    CallMoves objects uses pc stage choice taken next := by
  cases choice with
  | invoke object operation =>
      simp only [CallStage.move, Option.ite_none_right_eq_some] at move
      obtain ⟨⟨rfl, alive, _, permitted⟩, move⟩ := move
      cases move
      exact .invoke object operation alive permitted
  | run spurious =>
      obtain ⟨call, proceeds, is⟩ := Option.map_eq_some_iff.mp move
      cases is
      obtain ⟨running, rfl⟩ := WriteAsync.proceed_eq_some_iff.mp proceeds
      exact .run stage spurious running
  | store index byte =>
      simp only [CallStage.move] at move
      split at move <;> cases move
      exact .store _ index byte
  | keep =>
      simp only [CallStage.move] at move
      split at move <;> cases move
      · exact .keep _
      · exact .keep _
  | publish size =>
      simp only [CallStage.move] at move
      split at move <;> cases move
      exact .publish _ size
  | drop =>
      simp only [CallStage.move] at move
      split at move <;> cases move
      exact .drop _
  | exit =>
      simp only [CallStage.move] at move
      split at move <;> cases move
      exact .exit _
  | release =>
      simp only [CallStage.move] at move
      split at move
      · rw [Option.ite_none_right_eq_some] at move
        obtain ⟨waits, move⟩ := move
        cases move
        exact .release _ _ waits
      · cases move
  | finish =>
      simp only [CallStage.move] at move
      split at move <;> cases move
      exact .finish stage _ rfl

section Steps

variable [Fintype γ] {targetRead : BitVec 16}

/-- What each choice does. -/
inductive Moves (targetRead : BitVec 16) (source : Whole ω γ) : Choice ω γ → Whole ω γ → Prop
  | object (object : ω) (choice : ObjectChoice) {taken : Option RsIpc.Choice} {next : Object}
      (moves : ObjectMoves (source.own.objects object) (source.own.uses object)
        (source.core.pc (.object object)) (source.core.pc (.thread object)) choice taken next)
      {core : State (Party ω γ)} (took : (RsIpc.system (Party ω γ) targetRead 0).Took source.core
        (taken.map fun taken => (.object object, taken)) core) :
      Moves targetRead source (.object object choice) ⟨core,
        { source.own with objects := Function.update source.own.objects object next }⟩
  | thread (object : ω) (choice : RsIpc.Choice)
      (calls : (source.own.objects object).threadCalls choice = true) {core : State (Party ω γ)}
      (taken : source.core.step (.thread object, choice) = some core) :
      Moves targetRead source (.thread object choice) ⟨core, source.own⟩
  | call (call : γ) (choice : CallChoice ω) {taken : Option RsIpc.Choice} {next : CallStage ω}
      (moves : CallMoves source.own.objects source.own.uses (source.core.pc (.call call))
        (source.own.calls call) choice taken next)
      {core : State (Party ω γ)} (took : (RsIpc.system (Party ω γ) targetRead 0).Took source.core
        (taken.map fun taken => (.call call, taken)) core) :
      Moves targetRead source (.call call choice) ⟨core,
        { source.own with calls := Function.update source.own.calls call next }⟩

theorem moves_of_step {source target : Whole ω γ} {choice : Choice ω γ}
    (step : (system ω γ targetRead).step source choice = some target) :
    Moves targetRead source choice target := by
  obtain ⟨targetCore, targetOwn⟩ := target
  obtain ⟨taken, moves, took⟩ := System.joint_took step
  cases choice with
  | object object choice =>
      obtain ⟨⟨taken, next⟩, move, is⟩ := Option.map_eq_some_iff.mp moves
      cases is
      exact .object object choice (objectMoves_of_move move) took
  | thread object choice =>
      simp only [client, Option.ite_none_right_eq_some] at moves
      obtain ⟨calls, is⟩ := moves
      cases is
      exact .thread object choice calls took
  | call call choice =>
      obtain ⟨⟨taken, next⟩, move, is⟩ := Option.map_eq_some_iff.mp moves
      cases is
      exact .call call choice (callMoves_of_move move) took

end Steps

/-! ## Whose mapping is there -/

/-- Whoever is in no call takes no further step in one. -/
theorem not_idle_of_run {core target : State (Party ω γ)} {party : Party ω γ} {spurious : Bool}
    (step : core.step (party, if spurious then .spurious else .go) = some target) :
    core.pc party ≠ .idle := by
  intro idle
  obtain ⟨operation, is⟩ := invokes_of_idle step idle
  cases spurious <;> cases is

theorem idle_of_took {core target : State (Party ω γ)} {targetRead : BitVec 16} {party : Party ω γ}
    {taken : Option RsIpc.Choice} (took : (RsIpc.system (Party ω γ) targetRead 0).Took core
      (taken.map fun taken => (party, taken)) target) {other : Party ω γ} (ne : other ≠ party)
    (idle : core.pc other = .idle) : target.pc other = .idle := by
  have same := State.view_of_took (fun pc => decide (pc = .idle)) WaitSite.idle_resume took ne
  exact of_decide_eq_true (same.trans (decide_eq_true idle))

theorem idle_of_finish {core target : State (Party ω γ)} {party : Party ω γ} {outcome : Outcome}
    (step : core.step (party, .go) = some target) (done : core.pc party = .done outcome) :
    target.pc party = .idle := by
  obtain ⟨act, chosen, rfl⟩ := State.step_eq_some_iff.mp step
  rw [done] at chosen
  cases chosen
  exact State.perform_pc_self core party _

/-- An instance that is neither constructed nor dropped is in no call of its own, a
thread that is not there in none, and a call that is not there in none. -/
structure Placed (state : Whole ω γ) : Prop where
  object : ∀ object, (state.own.objects object).stage ≠ .registering →
    (state.own.objects object).stage ≠ .unregistering → state.core.pc (.object object) = .idle
  thread : ∀ object, (state.own.objects object).thread = false →
    state.core.pc (.thread object) = .idle
  call : ∀ call, state.own.calls call = .free → state.core.pc (.call call) = .idle

variable {targetRead : BitVec 16}

/-- Whatever an instance does next, it is in no call unless it registers or leaves. -/
theorem ObjectMoves.idle {object next : Object} {uses : Nat} {core target : State (Party ω γ)}
    {me : ω} {choice : ObjectChoice} {taken : Option RsIpc.Choice}
    (moves : ObjectMoves object uses (core.pc (.object me)) (core.pc (.thread me)) choice taken next)
    (took : (RsIpc.system (Party ω γ) targetRead 0).Took core
      (taken.map fun taken => (.object me, taken)) target)
    (idle : object.stage ≠ .registering → object.stage ≠ .unregistering →
      core.pc (.object me) = .idle)
    (notNew : next.stage ≠ .registering) (notLeaving : next.stage ≠ .unregistering) :
    target.pc (.object me) = .idle := by
  have still : target = core → target.pc (.object me) = core.pc (.object me) := by
    rintro rfl
    rfl
  cases moves with
  | register mode absent reads => exact absurd rfl notNew
  | unregister dropping reads => exact absurd rfl notLeaving
  | run spurious running => exact absurd (idle notNew notLeaving) (not_idle_of_run took)
  | finish outcome done => exact idle_of_finish took done
  | create mode absent readsNot =>
      exact (still took).trans (idle (by simp [absent]) (by simp [absent]))
  | collect alive unused =>
      exact (still took).trans (idle (by simp [alive]) (by simp [alive]))
  | drop dropping readsNot =>
      exact (still took).trans (idle (by simp [dropping]) (by simp [dropping]))
  | share referred | forget referred | spawn alive writes | ends resting =>
      exact (still took).trans (idle notNew notLeaving)

omit [DecidableEq ω] [DecidableEq γ] in
/-- A background thread ends between its calls. -/
theorem ObjectMoves.thread_kept {object next : Object} {uses : Nat} {pc threadPc : Pc}
    {choice : ObjectChoice} {taken : Option RsIpc.Choice}
    (moves : ObjectMoves object uses pc threadPc choice taken next) (gone : next.thread = false) :
    object.thread = false ∨ threadPc = .idle := by
  cases moves with
  | spawn alive writes => cases gone
  | ends resting => exact .inr resting
  | finish outcome done =>
      left
      unfold Object.finish at gone
      split at gone
      · split at gone
        · exact (Bool.or_eq_false_iff.mp gone).1
        · exact gone
      · exact gone
      · exact gone
  | _ => exact .inl gone

theorem Placed.step [Fintype γ] {source target : Whole ω γ} {choice : Choice ω γ}
    (placed : Placed source) (step : (system ω γ targetRead).step source choice = some target) :
    Placed target := by
  cases moves_of_step step with
  | @object me choice taken next moves core took =>
      refine ⟨fun other notNew notLeaving => ?_, fun other gone => ?_, fun call free => ?_⟩
      · by_cases here : other = me
        · subst here
          simp only [Function.update_self] at notNew notLeaving
          exact moves.idle took (placed.object other) notNew notLeaving
        · simp only [Function.update_of_ne here] at notNew notLeaving
          exact idle_of_took took (by simpa using here) (placed.object other notNew notLeaving)
      · refine idle_of_took took (by simp) ?_
        by_cases here : other = me
        · subst here
          simp only [Function.update_self] at gone
          exact (moves.thread_kept gone).elim (placed.thread other) id
        · simp only [Function.update_of_ne here] at gone
          exact placed.thread other gone
      · exact idle_of_took took (by simp) (placed.call call free)
  | @thread me choice calls core taken =>
      have took : (RsIpc.system (Party ω γ) targetRead 0).Took source.core
        ((some choice).map fun taken => (.thread me, taken)) core := taken
      refine ⟨fun other notNew notLeaving => ?_, fun other gone => ?_, fun call free => ?_⟩
      · exact idle_of_took took (by simp) (placed.object other notNew notLeaving)
      · by_cases here : other = me
        · subst here
          obtain ⟨operation, rfl⟩ := invokes_of_idle taken (placed.thread other gone)
          simp only [Object.threadCalls, Bool.and_eq_true] at calls
          exact absurd calls.1 (Bool.eq_false_iff.mp gone)
        · exact idle_of_took took (by simpa using here) (placed.thread other gone)
      · exact idle_of_took took (by simp) (placed.call call free)
  | @call me choice taken next moves core took =>
      refine ⟨fun other notNew notLeaving => ?_, fun other gone => ?_, fun call free => ?_⟩
      · exact idle_of_took took (by simp) (placed.object other notNew notLeaving)
      · exact idle_of_took took (by simp) (placed.thread other gone)
      · by_cases here : call = me
        · subst here
          simp only [Function.update_self] at free
          subst free
          generalize before : source.own.calls call = stage at moves
          cases moves with
          | run _ spurious running =>
              exact absurd (placed.call call before) (not_idle_of_run took)
          | finish _ outcome done => exact idle_of_finish took done
        · simp only [Function.update_of_ne here] at free
          exact idle_of_took took (by simpa using here) (placed.call call free)

theorem placed_of_reachable [Fintype γ] {ok : StepCondition (Whole ω γ) (Choice ω γ)}
    {state : Whole ω γ} (reachable : (system ω γ targetRead).ReachableVia ok state) :
    Placed state := by
  refine reachable.invariant Placed ?_ ?_
  · rintro ⟨core, own⟩ ⟨⟨capacity, rfl⟩, rfl⟩
    exact ⟨fun _ _ _ => rfl, fun _ _ => rfl, fun _ _ => rfl⟩
  · exact fun _ placed step _ => placed.step step

/-! ## Nothing is used after its mapping is gone -/

/-- The instance that a call or a guard object is about. -/
def CallStage.about (object : ω) : CallStage ω → Bool
  | .calling other | .guarding other | .leaving other _ => other = object
  | .free => false

/-- Whenever an instance is dropped, no guard object that has given its reference to it
up still has its guard. -/
def GuardsFirst : StepCondition (Whole ω γ) (Choice ω γ) :=
  fun source choice _ =>
    match choice with
    | .object object .collect => ∀ call,
        (source.own.calls call).about object = true → (source.own.calls call).holds object = true
    | _ => True

instance [Fintype γ] (source : Whole ω γ) (choice : Choice ω γ) (target : Whole ω γ) :
    Decidable (GuardsFirst source choice target) :=
  match choice with
  | .object _ .collect => Fintype.decidableForallFintype
  | .object _ (.new _) | .object _ (.run _) | .object _ .finish | .object _ .share
  | .object _ .forget | .object _ .unregister | .object _ .spawn | .object _ .ends | .thread _ _
  | .call _ _ => .isTrue trivial

omit [DecidableEq ω] [DecidableEq γ] in
/-- Only at its last reference an instance that is alive stops being so. -/
theorem ObjectMoves.alive {object next : Object} {uses : Nat} {pc threadPc : Pc}
    {choice : ObjectChoice} {taken : Option RsIpc.Choice}
    (moves : ObjectMoves object uses pc threadPc choice taken next)
    (alive : object.stage = .alive) : next.stage = .alive ∨ choice = .collect ∧ uses = 0 := by
  cases moves with
  | register mode absent reads | create mode absent readsNot =>
      rw [alive] at absent
      cases absent
  | unregister dropping reads | drop dropping readsNot =>
      rw [alive] at dropping
      cases dropping
  | finish outcome done =>
      left
      simp only [Object.finish, alive]
  | collect _ unused => exact .inr ⟨rfl, unused⟩
  | _ => exact .inl alive

/-- A call begins on an instance that is alive, and stays with it. -/
theorem CallMoves.about {objects : ω → Object} {uses : ω → Nat} {pc : Pc}
    {stage next : CallStage ω} {choice : CallChoice ω} {taken : Option RsIpc.Choice}
    (moves : CallMoves objects uses pc stage choice taken next) {object : ω}
    (about : next.about object = true) :
    stage.about object = true ∨ (objects object).stage = .alive := by
  cases moves with
  | invoke other operation alive permitted =>
      right
      rw [← of_decide_eq_true about]
      exact alive
  | finish _ outcome done => cases about
  | _ => exact .inl about

theorem alive_of_about [Fintype γ] {state : Whole ω γ}
    (reachable : (system ω γ targetRead).ReachableVia GuardsFirst state) {call : γ} {object : ω}
    (about : (state.own.calls call).about object = true) :
    (state.own.objects object).stage = .alive := by
  refine reachable.invariant (fun state => ∀ call object,
    (state.own.calls call).about object = true → (state.own.objects object).stage = .alive)
    ?_ ?_ call object about
  · rintro ⟨core, own⟩ ⟨_, rfl⟩ call object about
    cases about
  · rintro source choice target _ alive step guardsFirst call object about
    cases moves_of_step step with
    | @object me choice taken next moves core took =>
        by_cases here : object = me
        · subst here
          simp only [Function.update_self]
          refine (moves.alive (alive call object about)).resolve_right ?_
          rintro ⟨rfl, unused⟩
          have holds := guardsFirst call about
          have referred : 0 < count fun call => (source.own.calls call).holds object = true :=
            count_pos_of holds
          unfold Instances.uses at unused
          omega
        · simp only [Function.update_of_ne here]
          exact alive call object about
    | @thread me choice calls core taken => exact alive call object about
    | @call me choice taken next moves core took =>
        by_cases here : call = me
        · subst here
          simp only [Function.update_self] at about
          exact (moves.about about).elim (alive call object) id
        · simp only [Function.update_of_ne here] at about
          exact alive call object about

/-- The mapping that a party uses is there. -/
def Instances.MappedFor (own : Instances ω γ) : Party ω γ → Prop
  | .object object | .thread object => (own.objects object).Mapped
  | .call call => ∃ object, (own.calls call).about object = true ∧ (own.objects object).Mapped

def objectRuns (object : Fin 2) (count : Nat) : List (Choice (Fin 2) (Fin 1)) :=
  List.replicate count (.object object (.run false))

def callRuns (count : Nat) : List (Choice (Fin 2) (Fin 1)) :=
  List.replicate count (.call 0 (.run false))

/-- Two instances and one caller, before anything is constructed. -/
def unbuilt : Whole (Fin 2) (Fin 1) :=
  ⟨.fresh (Party (Fin 2) (Fin 1)) 1 0 0, .start (Fin 2) (Fin 1)⟩

theorem initial_unbuilt : (system (Fin 2) (Fin 1) 0).initial unbuilt :=
  ⟨⟨1, rfl⟩, rfl⟩

/-- A `WriteSync` instance to which Python code has a second reference, and a write
guard in its `__exit__`. -/
def exiting : Whole (Fin 2) (Fin 1) :=
  (system (Fin 2) (Fin 1) 0).finish unbuilt
    (.object 0 (.new .writeSync) :: .object 0 .share :: .call 0 (.invoke 0 .write) ::
      callRuns 7 ++ [.object 0 .forget, .call 0 .keep, .call 0 .exit]) (by decide +kernel)

/-- The guard object is all that refers to the instance; its `__exit__` gives the
reference up, and the instance is dropped. -/
def orphanedGuard : Whole (Fin 2) (Fin 1) :=
  (system (Fin 2) (Fin 1) 0).finish unbuilt
    (.object 0 (.new .writeSync) :: .call 0 (.invoke 0 .write) :: callRuns 7 ++
      [.call 0 .keep, .object 0 .forget, .call 0 .exit, .object 0 .collect,
        .object 0 .unregister]) (by decide +kernel)

/-- Without the condition the guard is dropped into a mapping that is gone. -/
theorem orphanedGuard_unmapped : (system (Fin 2) (Fin 1) 0).Reachable orphanedGuard ∧
    orphanedGuard.core.pc (.call 0) = .writeGuard ∧ ¬ orphanedGuard.own.MappedFor (.call 0) ∧
    ((orphanedGuard.own.calls 0).move orphanedGuard.own.objects orphanedGuard.own.uses .writeGuard
      .release).isSome = true := by
  refine ⟨System.reachable_finish initial_unbuilt _, by decide +kernel, ?_, by decide +kernel⟩
  rintro ⟨object, about, mapped⟩
  have unmapped : ∀ object, (orphanedGuard.own.calls 0).about object = true →
      ¬ (orphanedGuard.own.objects object).Mapped := by decide +kernel
  exact unmapped object about mapped

/-! ## Everybody who reads is counted -/

/-- Whether an instance is registered: from the exchange in `add_reader` to the one in
`remove_reader`. -/
def Object.registered (object : Object) (pc : Pc) : Bool :=
  match object.stage with
  | .registering => decide (pc = .done .unit)
  | .alive | .dropping => object.mode.canRead
  | .unregistering => decide (pc ≠ .done .unit)
  | .absent | .dropped => false

/-- Where an instance is that registers or leaves. -/
def Object.Fits (object : Object) (pc : Pc) : Prop :=
  match object.stage with
  | .registering => object.mode.canRead = true ∧
      (pc.Updating .addReader ∨ ∃ outcome, pc = .done outcome)
  | .unregistering => object.mode.canRead = true ∧ (pc.Updating .removeReader ∨ pc = .done .unit)
  | _ => True

theorem Object.registered_congr (object : Object) {pc other : Pc}
    (same : decide (other = .done .unit) = decide (pc = .done .unit)) :
    object.registered other = object.registered pc := by
  unfold registered
  split
  · exact same
  · rfl
  · rfl
  · rw [decide_not, decide_not, same]
  · rfl
  · rfl

theorem kept_of_took {core target : State (Party ω γ)} {party : Party ω γ}
    {taken : Option RsIpc.Choice} (took : (RsIpc.system (Party ω γ) targetRead 0).Took core
      (taken.map fun taken => (party, taken)) target) (quiet : (core.pc party).enlists = false) :
    target.msg.getReaderState.consumers = core.msg.getReaderState.consumers := by
  cases taken with
  | none => rw [show target = core from took]
  | some choice =>
      obtain ⟨act, chosen, rfl⟩ := State.step_eq_some_iff.mp took
      exact (next_takes chosen).consumers_kept quiet

/-- A step inside `add_reader`. -/
theorem registering_counts {core target : State (Party ω γ)} {party : Party ω γ}
    {choice : RsIpc.Choice} (step : core.step (party, choice) = some target)
    (at_ : (core.pc party).Updating .addReader) :
    ((target.pc party).Updating .addReader ∨ ∃ outcome, target.pc party = .done outcome) ∧
      target.msg.getReaderState.consumers.toNat = core.msg.getReaderState.consumers.toNat +
        (decide (target.pc party = .done .unit)).toNat := by
  obtain ⟨act, chosen, rfl⟩ := State.step_eq_some_iff.mp step
  rw [State.perform_pc_self, State.perform_msg]
  have takes := next_takes chosen
  rcases takes.enlisting (.inl rfl) at_ with ⟨joined, done⟩ | ⟨silent, updating | panicked⟩
  · rw [takes.consumers_joined joined, done]
    exact ⟨.inr ⟨_, rfl⟩, rfl⟩
  · rw [takes.consumers_silent silent]
    refine ⟨.inl updating, ?_⟩
    rcases updating with is | ⟨packed, is⟩ <;> simp [is]
  · rw [takes.consumers_silent silent, panicked]
    exact ⟨.inr ⟨_, rfl⟩, rfl⟩

/-- A step inside `remove_reader`, of somebody who is counted. -/
theorem unregistering_counts {core target : State (Party ω γ)} {party : Party ω γ}
    {choice : RsIpc.Choice} (step : core.step (party, choice) = some target)
    (at_ : (core.pc party).Updating .removeReader)
    (counted : 0 < core.msg.getReaderState.consumers.toNat) :
    ((target.pc party).Updating .removeReader ∨ target.pc party = .done .unit) ∧
      target.msg.getReaderState.consumers.toNat + 1 = core.msg.getReaderState.consumers.toNat +
        (decide (target.pc party ≠ .done .unit)).toNat := by
  obtain ⟨act, chosen, rfl⟩ := State.step_eq_some_iff.mp step
  rw [State.perform_pc_self, State.perform_msg]
  have takes := next_takes chosen
  rcases takes.enlisting (.inr rfl) at_ with ⟨left, done⟩ | ⟨silent, updating | panicked⟩
  · rw [takes.consumers_left left, done]
    exact ⟨.inr rfl, rfl⟩
  · rw [takes.consumers_silent silent]
    refine ⟨.inl updating, ?_⟩
    rcases updating with is | ⟨packed, is⟩ <;> simp [is]
  · rw [consumers_eq_zero_of_panicked chosen at_ panicked] at counted
    cases counted

/-- What an instance does keeps it where it belongs, and it is counted as it registers
and leaves. -/
theorem ObjectMoves.counts {object next : Object} {uses : Nat} {core target : State (Party ω γ)}
    {me : ω} {choice : ObjectChoice} {taken : Option RsIpc.Choice}
    (moves : ObjectMoves object uses (core.pc (.object me)) (core.pc (.thread me)) choice taken next)
    (took : (RsIpc.system (Party ω γ) targetRead 0).Took core
      (taken.map fun taken => (.object me, taken)) target)
    (idle : object.stage ≠ .registering → object.stage ≠ .unregistering →
      core.pc (.object me) = .idle)
    (fits : object.Fits (core.pc (.object me)))
    (counted : object.registered (core.pc (.object me)) = true →
      0 < core.msg.getReaderState.consumers.toNat) :
    next.Fits (target.pc (.object me)) ∧
      target.msg.getReaderState.consumers.toNat +
          (object.registered (core.pc (.object me))).toNat =
        core.msg.getReaderState.consumers.toNat +
          (next.registered (target.pc (.object me))).toNat := by
  cases moves with
  | register mode absent reads =>
      obtain ⟨act, chosen, rfl⟩ := State.step_eq_some_iff.mp took
      obtain ⟨_, rfl⟩ := next_invoke chosen
      rw [State.perform_pc_self]
      refine ⟨⟨reads, .inl (.inl rfl)⟩, ?_⟩
      simp only [Object.registered, absent]
      rfl
  | unregister dropping reads =>
      obtain ⟨act, chosen, rfl⟩ := State.step_eq_some_iff.mp took
      obtain ⟨_, rfl⟩ := next_invoke chosen
      rw [State.perform_pc_self]
      refine ⟨⟨reads, .inl (.inl rfl)⟩, ?_⟩
      simp only [Object.registered, dropping, reads]
      rfl
  | run spurious running =>
      have busy := not_idle_of_run took
      unfold Object.Fits at fits ⊢
      unfold Object.registered at counted ⊢
      cases stage : object.stage with
      | registering =>
          rw [stage] at fits
          obtain ⟨reads, at_⟩ := fits
          have at_ := at_.resolve_right fun ⟨outcome, done⟩ => running outcome done
          obtain ⟨there, counts⟩ := registering_counts took at_
          refine ⟨⟨reads, there⟩, ?_⟩
          simp only [counts, running .unit, decide_false]
          rfl
      | unregistering =>
          rw [stage] at fits counted
          obtain ⟨reads, at_⟩ := fits
          have at_ := at_.resolve_right (running .unit)
          obtain ⟨there, counts⟩ := unregistering_counts took at_
            (counted (decide_eq_true (running .unit)))
          refine ⟨⟨reads, there⟩, ?_⟩
          simp only [decide_eq_true (running .unit)]
          exact counts
      | absent | alive | dropping | dropped =>
          exact absurd (idle (by simp [stage]) (by simp [stage])) busy
  | finish outcome done =>
      have same := kept_of_took took (by rw [done]; rfl)
      rw [idle_of_finish took done, same]
      unfold Object.Fits at fits ⊢
      unfold Object.registered
      simp only [Object.finish, done] at fits ⊢
      cases stage : object.stage with
      | registering =>
          rw [stage] at fits
          by_cases returned : outcome = .unit
          · simp [returned, fits.1]
          · simp [returned]
      | unregistering =>
          rw [stage] at fits
          have returned : Pc.done outcome = .done .unit := by
            refine fits.2.resolve_left ?_
            rintro (is | ⟨packed, is⟩) <;> cases is
          simp [returned]
      | absent | alive | dropping | dropped =>
          have notBusy := idle (by simp [stage]) (by simp [stage])
          cases done.symm.trans notBusy
  | create mode absent readsNot =>
      rw [show target = core from took]
      refine ⟨trivial, ?_⟩
      simp only [Object.registered, absent, readsNot]
  | collect alive unused =>
      rw [show target = core from took]
      refine ⟨trivial, ?_⟩
      simp only [Object.registered, alive]
  | drop dropping readsNot =>
      rw [show target = core from took]
      refine ⟨trivial, ?_⟩
      simp only [Object.registered, dropping, readsNot]
  | share referred | forget referred | spawn alive writes | ends resting =>
      rw [show target = core from took]
      exact ⟨fits, rfl⟩

theorem Object.fits_resume (object : Object) (site : WaitSite) (ticket : Nat) :
    object.Fits site.resume = object.Fits (.parked site ticket) := by
  unfold Fits
  cases object.stage <;> cases site <;> simp [Pc.Updating, WaitSite.resume]

/-- The instances are where they belong, nobody else registers or leaves, and the word
counts the registered instances. -/
structure Listed [Fintype ω] (state : Whole ω γ) : Prop where
  fits : ∀ object, (state.own.objects object).Fits (state.core.pc (.object object))
  quiet : ∀ party, (∀ object, party ≠ .object object) → (state.core.pc party).enlists = false
  counted : state.core.msg.getReaderState.consumers.toNat = count fun object =>
    (state.own.objects object).registered (state.core.pc (.object object)) = true

/-- A step of a background thread or a call. -/
theorem Listed.other [Fintype ω] {source target : Whole ω γ} (listed : Listed source)
    {party : Party ω γ} (notObject : ∀ object, party ≠ .object object)
    (same : target.own.objects = source.own.objects) {taken : Option RsIpc.Choice}
    (took : (RsIpc.system (Party ω γ) targetRead 0).Took source.core
      (taken.map fun taken => (party, taken)) target.core)
    (permitted : ∀ operation, taken = some (.invoke operation) → operation.start.enlists = false) :
    Listed target := by
  have quiet := listed.quiet party notObject
  refine ⟨fun object => ?_, fun other apart => ?_, ?_⟩
  · rw [same, State.view_of_took (source.own.objects object).Fits
      (source.own.objects object).fits_resume took (notObject object).symm]
    exact listed.fits object
  · by_cases here : other = party
    · subst here
      cases taken with
      | none =>
          rw [show target.core = source.core from took]
          exact quiet
      | some choice =>
          obtain ⟨act, chosen, is⟩ := State.step_eq_some_iff.mp took
          rw [is, State.perform_pc_self, Bool.eq_false_iff]
          intro enlists
          rcases (next_takes chosen).enlists enlists with already | idle
          · exact Bool.eq_false_iff.mp quiet already
          · rw [idle] at chosen
            obtain ⟨operation, rfl, rfl⟩ := next_idle chosen
            exact Bool.eq_false_iff.mp (permitted operation rfl) enlists
    · rw [State.view_of_took Pc.enlists WaitSite.enlists_resume took here]
      exact listed.quiet other apart
  · rw [kept_of_took took quiet, listed.counted, same]
    refine count_congr fun object => ?_
    rw [(source.own.objects object).registered_congr (State.view_of_took
      (fun pc => decide (pc = .done .unit)) WaitSite.returns_resume took (notObject object).symm)]

theorem Listed.step [Fintype ω] [Fintype γ] {source target : Whole ω γ} {choice : Choice ω γ}
    (placed : Placed source) (listed : Listed source)
    (step : (system ω γ targetRead).step source choice = some target) : Listed target := by
  cases moves_of_step step with
  | @object me choice taken next moves core took =>
      obtain ⟨fits, counts⟩ := moves.counts took (placed.object me) (listed.fits me)
        fun registered => by
          rw [listed.counted]
          exact count_pos_of registered
      refine ⟨fun other => ?_, fun party apart => ?_, ?_⟩
      · by_cases here : other = me
        · subst here
          simp only [Function.update_self]
          exact fits
        · simp only [Function.update_of_ne here]
          rw [State.view_of_took (source.own.objects other).Fits
            (source.own.objects other).fits_resume took (by simpa using here)]
          exact listed.fits other
      · rw [State.view_of_took Pc.enlists WaitSite.enlists_resume took (apart me)]
        exact listed.quiet party apart
      · have kept : ∀ other, other ≠ me →
            ((source.own.objects other).registered (source.core.pc (.object other)) = true ↔
              (Function.update source.own.objects me next other).registered
                (core.pc (.object other)) = true) := by
          intro other here
          rw [Function.update_of_ne here, (source.own.objects other).registered_congr
            (State.view_of_took (fun pc => decide (pc = .done .unit)) WaitSite.returns_resume took
              (by simpa using here))]
        have change := count_change kept
        have listedBefore := listed.counted
        rw [Function.update_self] at change
        have asIf : ∀ registered : Bool,
            registered.toNat = if registered = true then 1 else 0 := by decide
        rw [asIf, asIf] at counts
        show core.msg.getReaderState.consumers.toNat = count fun object =>
          (Function.update source.own.objects me next object).registered
            (core.pc (.object object)) = true
        omega
  | @thread me choice calls core taken =>
      have took : (RsIpc.system (Party ω γ) targetRead 0).Took source.core
        ((some choice).map fun taken => (.thread me, taken)) core := taken
      refine listed.other (by simp) rfl took ?_
      rintro operation ⟨⟩
      simp only [Object.threadCalls, Bool.and_eq_true] at calls
      cases operation <;> first | rfl | cases calls.2
  | @call me choice taken next moves core took =>
      refine listed.other (by simp) rfl took ?_
      intro operation is
      generalize source.own.calls me = stage at moves
      cases moves with
      | invoke object operation alive permitted =>
          cases is
          cases operation <;> first | rfl | cases permitted
      | run _ spurious running => cases spurious <;> cases is
      | _ => cases is

theorem listed_of_reachable [Fintype ω] [Fintype γ] {state : Whole ω γ}
    (reachable : (system ω γ targetRead).Reachable state) : Listed state := by
  refine (reachable.invariant (fun state => Placed state ∧ Listed state) ?_ ?_).2
  · rintro ⟨core, own⟩ ⟨⟨capacity, rfl⟩, rfl⟩
    have nobody : (count fun object => ((Instances.start ω γ).objects object).registered .idle =
        true) = 0 := count_eq_zero_iff.mpr fun object registered => by cases registered
    have none : (State.fresh (Party ω γ) capacity targetRead 0).msg.getReaderState.consumers.toNat =
        0 := by
      rw [State.fresh_getReaderState]
      rfl
    exact ⟨⟨fun _ _ _ => rfl, fun _ _ => rfl, fun _ _ => rfl⟩,
      fun _ => trivial, fun _ _ => rfl, none.trans nobody.symm⟩
  · rintro source choice target _ ⟨placed, listed⟩ step _
    exact ⟨placed.step step, listed.step placed step⟩

/-- One instance is registered, the other is about to leave. -/
def departing : Whole (Fin 2) (Fin 1) :=
  (system (Fin 2) (Fin 1) 0).finish unbuilt
    (.object 0 (.new .readAsync) :: objectRuns 0 2 ++ .object 0 .finish ::
      .object 1 (.new .readSync) :: objectRuns 1 2 ++ [.object 1 .finish, .object 1 .forget,
        .object 1 .collect, .object 1 .unregister, .object 1 (.run false)]) (by decide +kernel)

end RsIpc.Lifetime
