import RsIpc.Python.Delivery
import RsIpc.SharedMessage.Rest
import RsIpc.SharedMessage.SleepingReader
import Mathlib.Tactic.FinCases

/-!
# The stream at rest

When nothing goes on by itself any more, everybody sleeps, waits for a caller, or has
nothing to do.  Then every reader that is in a call has received all that was published,
and a payload is left only with a thread that sleeps in the backpressure loop.
-/

namespace RsIpc.WriteAsync

open Protocol Protocol.Handshake Transition

universe u

variable {ρ τ σ : Type u}

/-- A payload, a call, or a spurious failure or wake-up comes from outside. -/
def Choice.Outside : Choice ρ τ σ → Prop
  | .write _ _ | .stop _ | .reader _ .new | .reader _ (.read _) => True
  | .thread _ (.run spurious) | .reader _ (.run spurious) | .stopping _ spurious =>
      spurious = true
  | _ => False

variable [DecidableEq ρ] [DecidableEq τ] [DecidableEq σ] {closes : σ → Bool}

/-- Whatever happens next comes from outside. -/
def AtRest (closes : σ → Bool) (state : Whole ρ τ σ) : Prop :=
  ∀ choice, ¬ choice.Outside → (system ρ τ closes).step state choice = none

/-! ## Where the parties rest -/

omit [DecidableEq ρ] [DecidableEq τ] [DecidableEq σ] in
theorem proceed_of_not_done {pc : Pc} (running : ∀ outcome, pc ≠ .done outcome) :
    proceed pc false = some .go :=
  proceed_eq_some_iff.mpr ⟨running, rfl⟩

section Places

variable {state : Whole ρ τ σ}

/-- A reader that could go on is held up by the memory. -/
theorem AtRest.reader_blocked (rest : AtRest closes state) (reader : ρ) (choice : ReaderChoice)
    (inside : ¬ (Choice.reader reader choice : Choice ρ τ σ).Outside) {taken : Option RsIpc.Choice}
    {next : Reader}
    (moves : (state.own.readers reader).move state.core.msg (state.core.pc (.reader reader)) choice =
      some (taken, next)) :
    ∃ call, taken = some call ∧ state.core.step (.reader reader, call) = none := by
  have client : client closes state.core state.own (.reader reader choice) =
      some (taken.map fun call => (.reader reader, call),
        { state.own with readers := Function.update state.own.readers reader next }) := by
    simp [client, moves]
  obtain ⟨label, same, none⟩ := System.step_eq_none_of_joint (rest _ inside) client
  obtain ⟨call, is, rfl⟩ := Option.map_eq_some_iff.mp same
  exact ⟨call, is, none⟩

/-- A thread that could go on is held up by the memory. -/
theorem AtRest.thread_blocked (rest : AtRest closes state) (thread : τ) (choice : ThreadChoice)
    (inside : ¬ (Choice.thread thread choice : Choice ρ τ σ).Outside) {taken : Option RsIpc.Choice}
    {next : Thread}
    (moves : (state.own.threads thread).move (state.own.sender != some thread)
      (state.core.pc (.thread thread)) choice = some (taken, next)) :
    ∃ call, taken = some call ∧ state.core.step (.thread thread, call) = none := by
  have client : client closes state.core state.own (.thread thread choice) =
      some (taken.map fun call => (.thread thread, call), { state.own with
        threads := Function.update state.own.threads thread next
        lastWrittenSequence :=
          choice.store (state.core.pc (.thread thread)) state.own.lastWrittenSequence }) := by
    simp [client, moves]
  obtain ⟨label, same, none⟩ := System.step_eq_none_of_joint (rest _ inside) client
  obtain ⟨call, is, rfl⟩ := Option.map_eq_some_iff.mp same
  exact ⟨call, is, none⟩

theorem AtRest.stopper_blocked (rest : AtRest closes state) (stopper : σ) (choice : Choice ρ τ σ)
    (inside : ¬ choice.Outside) {own : Instance ρ τ}
    (moves : client closes state.core state.own choice = some (some (.stopper stopper, .go), own)) :
    state.core.step (.stopper stopper, .go) = none := by
  obtain ⟨label, same, none⟩ := System.step_eq_none_of_joint (rest _ inside) moves
  cases same
  exact none

/-- A party cannot take the next step of its call, or leave it. -/
theorem AtRest.rests (rest : AtRest closes state) (party : Party ρ τ σ) :
    (state.core.pc party).Rests state.core.msg := by
  refine rests_of_step_eq_none ?_
  by_cases done : ∃ outcome, state.core.pc party = .done outcome
  · obtain ⟨outcome, done⟩ := done
    cases party with
    | reader reader =>
        have moves : (state.own.readers reader).move state.core.msg
            (state.core.pc (.reader reader)) .finish = some (some .go,
              { state.own.readers reader with
                stage := (state.own.readers reader).stage.finish outcome }) := by
          simp only [Reader.move, done]
        obtain ⟨call, same, none⟩ := rest.reader_blocked reader .finish id moves
        cases same
        exact none
    | thread thread =>
        have moves : ∃ next, (state.own.threads thread).move (state.own.sender != some thread)
            (state.core.pc (.thread thread)) .finish = some (some .go, next) := by
          rw [done]
          cases outcome <;> exact ⟨_, rfl⟩
        obtain ⟨next, moves⟩ := moves
        obtain ⟨call, same, none⟩ := rest.thread_blocked thread .finish id moves
        cases same
        exact none
    | stopper stopper =>
        have moves : client closes state.core state.own (.stopped stopper) =
            some (some (.stopper stopper, .go),
              if closes stopper = true then { state.own with sender := none } else state.own) := by
          simp only [client, done]
        exact rest.stopper_blocked stopper _ id moves
  · have running : ∀ outcome, state.core.pc party ≠ .done outcome :=
      fun outcome is => done ⟨outcome, is⟩
    have goes := proceed_of_not_done running
    cases party with
    | reader reader =>
        have moves : (state.own.readers reader).move state.core.msg
            (state.core.pc (.reader reader)) (.run false) =
              some (some .go, state.own.readers reader) := by
          simp only [Reader.move, goes, Option.map_some]
        obtain ⟨call, same, none⟩ := rest.reader_blocked reader (.run false) Bool.false_ne_true moves
        cases same
        exact none
    | thread thread =>
        have moves : (state.own.threads thread).move (state.own.sender != some thread)
            (state.core.pc (.thread thread)) (.run false) =
              some (some .go, state.own.threads thread) := by
          simp only [Thread.move, goes, Option.map_some]
        obtain ⟨call, same, none⟩ := rest.thread_blocked thread (.run false) Bool.false_ne_true moves
        cases same
        exact none
    | stopper stopper =>
        have moves : client closes state.core state.own (.stopping stopper false) =
            some (some (.stopper stopper, .go), state.own) := by
          simp only [client, goes, Option.map_some]
        exact rest.stopper_blocked stopper (.stopping stopper false) Bool.false_ne_true moves

/-- A reader rests between its calls, or it sleeps in `read`. -/
theorem AtRest.reader (rest : AtRest closes state) (placed : Placed state) (reader : ρ) :
    state.core.pc (.reader reader) = .idle ∨ ∃ lastSeenSeq block ticket,
      state.core.pc (.reader reader) = .parked (.reader lastSeenSeq block) ticket := by
  have rests := rest.rests (.reader reader)
  have fits : (state.own.readers reader).stage.Fits state.core.msg.capacity
      (state.core.pc (.reader reader)) := placed.fits (.reader reader)
  cases stage : (state.own.readers reader).stage with
  | absent =>
      rw [stage] at fits
      exact .inl fits
  | registering =>
      rw [stage] at fits
      rcases fits.updating_addReader with at_ | ⟨outcome, done⟩
      · rcases at_ with is | ⟨packed, is⟩ <;> rw [is] at rests <;> cases rests
      · rw [done] at rests
        cases rests
  | ready =>
      rw [stage] at fits
      rcases fits with idle | ⟨lastSeenSeq, block, within⟩
      · exact .inl idle
      · right
        cases here : state.core.pc (.reader reader) with
        | parked site ticket =>
            rw [here] at within
            cases site with
            | reader last blocking => exact ⟨last, blocking, ticket, rfl⟩
            | backpressure writer | drain writer => cases writer <;> cases within
        | readGuard number =>
            have moves : (state.own.readers reader).move state.core.msg
                (state.core.pc (.reader reader)) .store = some (none,
                  { state.own.readers reader with stage := .stored, lastReadSequence := number }) := by
              simp only [Reader.move, here, stage, if_true]
            obtain ⟨call, same, _⟩ := rest.reader_blocked reader _ id moves
            cases same
        | idle =>
            rw [here] at within
            cases within
        | writeGuard =>
            rw [here] at within
            cases within
        | lock writer =>
            rw [here] at within
            cases writer <;> cases within
        | lockTarget count =>
            rw [here] at within
            cases within
        | _ =>
            rw [here] at rests
            cases rests
  | stored =>
      have moves : (state.own.readers reader).move state.core.msg
          (state.core.pc (.reader reader)) .copy = some (none, { state.own.readers reader with
            stage := .copied
            received := (state.own.readers reader).received ++ state.core.msg.dataRef.toList }) := by
        simp only [Reader.move, stage, if_true]
      obtain ⟨call, same, _⟩ := rest.reader_blocked reader _ id moves
      cases same
  | copied =>
      have moves : (state.own.readers reader).move state.core.msg
          (state.core.pc (.reader reader)) .drop =
            some (some .drop, { state.own.readers reader with stage := .ready }) := by
        simp only [Reader.move, stage, if_true]
      obtain ⟨call, same, none⟩ := rest.reader_blocked reader _ id moves
      cases same
      rw [stage] at fits
      obtain ⟨number, is⟩ := fits
      have step : state.core.step (.reader reader, .drop) = _ :=
        State.step_eq_some_iff.mpr ⟨_, by rw [is]; rfl, rfl⟩
      cases step.symm.trans none

/-- A thread rests between its payloads, or in a call that waits for the mutex or sleeps. -/
theorem AtRest.thread (rest : AtRest closes state) (placed : Placed state) {thread : τ}
    {data : List UInt8} (writing : (state.own.threads thread).stage = .writing data) :
    (state.core.pc (.thread thread) = .lock (.slice data) ∧ state.core.msg.writerMutex = true) ∨
      ∃ site ticket, state.core.pc (.thread thread) = .parked site ticket ∧
        site.condvar = .readerDone := by
  have rests := rest.rests (.thread thread)
  have fits : (state.own.threads thread).stage.Fits state.core.msg.capacity
      (state.core.pc (.thread thread)) := placed.fits (.thread thread)
  rw [writing] at fits
  have within := fits.2
  cases here : state.core.pc (.thread thread) with
  | parked site ticket =>
      right
      refine ⟨site, ticket, rfl, ?_⟩
      rw [here] at within
      cases site with
      | reader lastSeenSeq block => cases within
      | backpressure writer | drain writer => rfl
  | lock writer =>
      left
      rw [here] at within rests
      cases rests with
      | lock _ taken =>
          cases writer with
          | slice newData =>
              cases within
              exact ⟨rfl, taken⟩
          | guard => cases within
  | idle | writeGuard | lockTarget count =>
      rw [here] at within
      cases within
  | readGuard number =>
      rw [here] at within
      cases within
  | _ =>
      rw [here] at rests
      cases rests

/-- A thread that is waiting for a payload has none. -/
theorem AtRest.queue (rest : AtRest closes state) (placed : Placed state) {thread : τ}
    (receiving : (state.own.threads thread).stage = .receiving) :
    (state.own.threads thread).queue = [] := by
  have idle : state.core.pc (.thread thread) = .idle := by
    have fits : (state.own.threads thread).stage.Fits state.core.msg.capacity
        (state.core.pc (.thread thread)) := placed.fits (.thread thread)
    rwa [receiving] at fits
  cases queued : (state.own.threads thread).queue with
  | nil => rfl
  | cons data queue =>
      have moves : (state.own.threads thread).move (state.own.sender != some thread)
          (state.core.pc (.thread thread)) .receive =
            some (some (.invoke (.writeSlice data)), ⟨.writing data, queue⟩) := by
        simp only [Thread.move, receiving, queued]
      obtain ⟨call, same, none⟩ := rest.thread_blocked thread .receive id moves
      cases same
      have step : state.core.step (.thread thread, .invoke (.writeSlice data)) = _ :=
        State.step_eq_some_iff.mpr ⟨_, by rw [idle]; rfl, rfl⟩
      cases step.symm.trans none

theorem AtRest.not_owed (rest : AtRest closes state) (which : Condvar) :
    ¬ state.core.Owed which := by
  rintro ⟨party, owes⟩
  rw [(rest.rests party).owes] at owes
  cases owes

theorem AtRest.not_waking (rest : AtRest closes state) (which : Condvar) :
    ¬ state.core.Waking which := by
  rintro ⟨party, waking⟩
  rw [(rest.rests party).waking] at waking
  cases waking

omit [DecidableEq ρ] [DecidableEq τ] [DecidableEq σ] in
/-- Where a party rests. -/
inductive Place (state : Whole ρ τ σ) : Party ρ τ σ → Pc → Prop
  | idle (party : Party ρ τ σ) : Place state party .idle
  | reads (reader : ρ) (lastSeenSeq : BitVec 64) (block : Bool) (ticket : Nat) :
      Place state (.reader reader) (.parked (.reader lastSeenSeq block) ticket)
  | waits (thread : τ) (data : List UInt8)
      (writing : (state.own.threads thread).stage = .writing data)
      (taken : state.core.msg.writerMutex = true) :
      Place state (.thread thread) (.lock (.slice data))
  | writes (thread : τ) (data : List UInt8)
      (writing : (state.own.threads thread).stage = .writing data) (site : WaitSite) (ticket : Nat)
      (writer : site.condvar = .readerDone) :
      Place state (.thread thread) (.parked site ticket)

theorem AtRest.place (rest : AtRest closes state) (placed : Placed state) (party : Party ρ τ σ) :
    Place state party (state.core.pc party) := by
  cases party with
  | reader reader =>
      rcases rest.reader placed reader with idle | ⟨lastSeenSeq, block, ticket, parked⟩
      · rw [idle]
        exact .idle _
      · rw [parked]
        exact .reads reader lastSeenSeq block ticket
  | thread thread =>
      cases stage : (state.own.threads thread).stage with
      | writing data =>
          rcases rest.thread placed stage with ⟨waits, taken⟩ | ⟨site, ticket, parked, writer⟩
          · rw [waits]
            exact .waits thread data stage taken
          · rw [parked]
            exact .writes thread data stage site ticket writer
      | absent | receiving | ended =>
          have fits : (state.own.threads thread).stage.Fits state.core.msg.capacity
              (state.core.pc (.thread thread)) := placed.fits (.thread thread)
          rw [stage] at fits
          rw [show state.core.pc (.thread thread) = .idle from fits]
          exact .idle _
  | stopper stopper =>
      have rests := rest.rests (.stopper stopper)
      rcases placed.fits (.stopper stopper) with idle | within
      · rw [idle]
        exact .idle _
      · cases here : state.core.pc (.stopper stopper) with
        | idle => exact .idle _
        | parked site ticket =>
            rw [here] at within
            cases site with
            | reader lastSeenSeq block => cases within
            | backpressure writer | drain writer => cases writer <;> cases within
        | lock writer =>
            rw [here] at within
            cases writer <;> cases within
        | readGuard number | writeGuard | lockTarget count =>
            rw [here] at within
            cases within
        | _ =>
            rw [here] at rests
            cases rests

omit [DecidableEq ρ] [DecidableEq τ] [DecidableEq σ] in
theorem Place.not_reads {party : Party ρ τ σ} {pc : Pc} (place : Place state party pc) :
    ¬ pc.phase.Reads := by
  cases place with
  | idle | reads reader lastSeenSeq block ticket | waits thread data writing taken =>
      intro reads
      rcases reads with is | is <;> cases is
  | writes thread data writing site ticket writer =>
      cases site <;> intro reads <;> rcases reads with is | is <;> cases is

end Places

section Runs

variable {state : Whole ρ τ σ}

/-- All readers are constructed first, and notifications are few between ticket and park. -/
def Prompt (closes : σ → Bool) : StepCondition (Whole ρ τ σ) (Choice ρ τ σ) :=
  fun source choice target => AllRegistered source choice target ∧
    System.OnCore (client closes) Timely source choice target

instance [Fintype ρ] (source : Whole ρ τ σ) (choice : Choice ρ τ σ) (target : Whole ρ τ σ) :
    Decidable (Prompt closes source choice target) :=
  inferInstanceAs (Decidable (_ ∧ _))

/-- Nobody gives up while the memory is not stopped. -/
theorem clearsOwing_of_running {ok : StepCondition (Whole ρ τ σ) (Choice ρ τ σ)}
    (reachable : (system ρ τ closes).ReachableVia ok state)
    (running : state.core.msg.isStopped = false) :
    (memory ρ τ σ).ReachableVia ClearsOwing state.core := by
  induction reachable with
  | initial start => exact .initial start.1
  | @step source target choice before step holds ih =>
      obtain ⟨taken, _, took⟩ := System.joint_took step
      cases taken with
      | none =>
          rw [show target.core = source.core from took] at running ⊢
          exact ih running
      | some label =>
          have earlier : source.core.msg.isStopped = false := by
            by_contra stopped
            rw [isStopped_of_step took (by simpa using stopped)] at running
            cases running
          refine (ih earlier).step took fun clears => ?_
          cases ((placed_of_reachable before).fits label.1).whereabouts with
          | idle is => cases is.symm.trans clears
          | calls operation streams writesNothing within =>
              rw [clears] at within
              exact absurd within writesNothing
          | writes thread data is stage short within =>
              have steady := steady_of_reachable before thread
              have stopped := steady.refused data stage (by rw [← is, clears]; trivial)
              cases earlier.symm.trans stopped

theorem timely_of_prompt (reachable : (system ρ τ closes).ReachableVia (Prompt closes) state) :
    (memory ρ τ σ).ReachableVia Timely state.core :=
  System.reachableVia_core_of_onCore (fun prompt => prompt.2) reachable

variable [Fintype ρ] [Fintype τ] [Fintype σ]

theorem AtRest.registrations (rest : AtRest closes state) (placed : Placed state) :
    state.core.registrations = 0 :=
  count_eq_zero_iff.mpr fun party => (rest.place placed party).not_reads

/-- At rest no writer waits for active readers. -/
theorem AtRest.not_draining (rest : AtRest closes state)
    (reachable : (system ρ τ closes).ReachableVia (Prompt closes) state) (party : Party ρ τ σ)
    (writer : Writer) (ticket : Nat) : state.core.pc party ≠ .parked (.drain writer) ticket := by
  intro parked
  have placed := placed_of_reachable reachable
  have timely := timely_of_prompt reachable
  have current := (current_or_waking timely parked).resolve_right (rest.not_waking _)
  have draining : (state.core.pc party).draining = some (state.core.msg.notified .readerDone) := by
    rw [parked]
    exact congrArg some current
  rcases registrations_or_owed_of_draining timely draining with registered | owed
  · exact absurd (rest.registrations placed) (Nat.ne_of_gt registered)
  · exact rest.not_owed _ owed

theorem AtRest.flag_down (rest : AtRest closes state)
    (reachable : (system ρ τ closes).ReachableVia (Prompt closes) state) :
    state.core.msg.getSequenceState.writingInProgress ≠ true := by
  intro up
  obtain ⟨party, raised⟩ :=
    flag_raised_of_publishes ((regular_of_reachable reachable).mono fun regular => regular.2) up
  have draining := rest.not_draining reachable party
  have place := rest.place (placed_of_reachable reachable) party
  generalize state.core.pc party = pc at raised draining place
  cases place with
  | idle | reads reader lastSeenSeq block ticket | waits thread data writing taken =>
      rcases raised with is | is <;> cases is
  | writes thread data writing site ticket same =>
      cases site with
      | drain writer => exact draining writer ticket rfl
      | reader lastSeenSeq block => cases same
      | backpressure writer => rcases raised with is | is <;> cases is

/-- A reader that sleeps in `read` has been given the last message. -/
theorem AtRest.current (rest : AtRest closes state)
    (reachable : (system ρ τ closes).ReachableVia (Prompt closes) state)
    (running : state.core.msg.isStopped = false) {reader : ρ}
    (reads : state.core.pc (.reader reader) ≠ .idle) :
    History.lastAdmitted (· = .reader reader) state.core.log = state.core.msg.currentSequence := by
  obtain ⟨lastSeenSeq, block, ticket, parked⟩ :=
    (rest.reader (placed_of_reachable reachable) reader).resolve_left reads
  have current :=
    (current_or_waking (timely_of_prompt reachable) parked).resolve_right (rest.not_waking _)
  have reading : (state.core.pc (.reader reader)).reading = some (lastSeenSeq, ticket) := by
    rw [parked]
    rfl
  rcases excused_of_reading (clearsOwing_of_running reachable running) reading current with
    ⟨_, same⟩ | up | owed
  · have following : Following (· = .reader reader) state.core := following_of_follows
      ((abiding_of_reachable reachable).refine fun _ step abiding =>
        abiding.1.follows step (.reader reader))
    exact (following.last rfl (by rw [parked]; rfl)).symm.trans same.symm
  · exact absurd up (rest.flag_down reachable)
  · exact absurd owed (rest.not_owed _)

/-- A reader that sleeps in `read` has received everything that was published. -/
theorem AtRest.received (rest : AtRest closes state)
    (reachable : (system ρ τ closes).ReachableVia (Prompt closes) state)
    (running : state.core.msg.isStopped = false) {reader : ρ}
    (reads : state.core.pc (.reader reader) ≠ .idle) :
    (state.own.readers reader).received = payloads state.core := by
  obtain ⟨lastSeenSeq, block, ticket, parked⟩ :=
    (rest.reader (placed_of_reachable reachable) reader).resolve_left reads
  have registered := reachable.mono fun prompt => prompt.1
  have all := (abreast_of_reachable registered reader).length_eq
    (System.reachable_core reachable) (rest.current reachable running reads)
  have receives := receives_of_reachable registered reader
  have guards := receives.guards
  rw [all, Reader.pending_of_not_held (by rw [parked]; rfl)] at guards
  refine receives.copied.eq_of_length ?_
  exact guards.symm.trans (List.length_map _).symm

/-- At rest only a thread holds the mutex, and it sleeps. -/
theorem AtRest.holder (rest : AtRest closes state)
    (reachable : (system ρ τ closes).ReachableVia (Prompt closes) state)
    (taken : state.core.msg.writerMutex = true) :
    ∃ thread data writer ticket, (state.own.threads thread).stage = .writing data ∧
      state.core.pc (.thread thread) = .parked (.backpressure writer) ticket := by
  obtain ⟨party, holds⟩ := (owned_of_reachable (System.reachable_core reachable)).held taken
  change (state.core.pc party).phase.Holds at holds
  have draining := rest.not_draining reachable party
  have place := rest.place (placed_of_reachable reachable) party
  generalize here : state.core.pc party = pc at holds draining place
  cases place with
  | idle | reads reader lastSeenSeq block ticket | waits thread data writing taken =>
      rcases holds with is | is | is <;> cases is
  | writes thread data writing site ticket same =>
      cases site with
      | drain writer => exact absurd rfl (draining writer ticket)
      | reader lastSeenSeq block => cases same
      | backpressure writer => exact ⟨thread, data, writer, ticket, writing, here⟩

/-- What is accepted is published, or a thread sleeps in the backpressure loop. -/
theorem AtRest.accepted (rest : AtRest closes state)
    (reachable : (system ρ τ closes).ReachableVia (Prompt closes) state)
    (running : state.core.msg.isStopped = false) :
    state.own.accepted = payloads state.core ∨ ∃ thread data writer ticket,
      (state.own.threads thread).stage = .writing data ∧
        state.core.pc (.thread thread) = .parked (.backpressure writer) ticket := by
  have placed := placed_of_reachable reachable
  have all := (accepted_published_in_order reachable.reachable).2 running
  rcases flow_of_reachable reachable with unwritten | ⟨lead, flow⟩
  · left
    rw [unwritten.accepted, unwritten.payloads]
  · have notStopped : state.core.msg.isStopped ≠ true := by
      rw [running]
      exact Bool.false_ne_true
    rw [outstanding, flow.served.resolve_right notStopped] at all
    cases stage : (state.own.threads lead).stage with
    | absent => exact absurd stage flow.begun
    | ended => exact absurd (flow.ended stage) notStopped
    | receiving =>
        left
        simpa [Thread.pending, stage, rest.queue placed stage] using all
    | writing data =>
        right
        rcases rest.thread placed stage with ⟨_, taken⟩ | ⟨site, ticket, parked, same⟩
        · exact rest.holder reachable taken
        · cases site with
          | reader lastSeenSeq block => cases same
          | drain writer => exact absurd parked (rest.not_draining reachable _ writer ticket)
          | backpressure writer => exact ⟨lead, data, writer, ticket, stage, parked⟩

/-- When nothing goes on by itself and the memory is not stopped, every reader that is in
a call of `read` has received all published payloads, and these are all the accepted
ones, or a thread sleeps in the backpressure loop. -/
theorem delivered_at_rest (reachable : (system ρ τ closes).ReachableVia (Prompt closes) state)
    (rest : AtRest closes state) (running : state.core.msg.isStopped = false) :
    (∀ reader, state.core.pc (.reader reader) ≠ .idle →
      (state.own.readers reader).received = payloads state.core) ∧
    (state.own.accepted = payloads state.core ∨ ∃ thread data writer ticket,
      (state.own.threads thread).stage = .writing data ∧
        state.core.pc (.thread thread) = .parked (.backpressure writer) ticket) :=
  ⟨fun _ reads => rest.received reachable running reads, rest.accepted reachable running⟩

end Runs

/-! ## The spin phase -/

omit [DecidableEq σ] in
theorem reader_goes {core : State (Party ρ τ σ)} {own : Instance ρ τ} {reader : ρ} {site : WaitSite}
    {ticket spins : Nat} (waits : core.pc (.reader reader) = .wait site ticket spins) :
    client closes core own (.reader reader (.run false)) = some (some (.reader reader, .go), own) := by
  simp [client, Reader.move, proceed, waits]

omit [DecidableEq σ] in
theorem thread_goes {core : State (Party ρ τ σ)} {own : Instance ρ τ} {thread : τ} {site : WaitSite}
    {ticket spins : Nat} (waits : core.pc (.thread thread) = .wait site ticket spins) :
    client closes core own (.thread thread (.run false)) = some (some (.thread thread, .go), own) := by
  simp [client, Thread.move, proceed, waits, ThreadChoice.store]

/-- A step of a spin phase is prompt if the count is close to the ticket. -/
theorem prompt_spin [Fintype ρ] {core : State (Party ρ τ σ)} {own : Instance ρ τ}
    {party : Party ρ τ σ} {choice : Choice ρ τ σ} {site : WaitSite} {ticket : Nat}
    (goes : ∀ {core : State (Party ρ τ σ)} {spins : Nat}, core.pc party = .wait site ticket spins →
      client closes core own choice = some (some (party, .go), own))
    (calls : ∀ payload fresh, choice ≠ .write payload fresh)
    (close : core.msg.notified site.condvar < ticket + 2 ^ 32) (spins : Nat) (next : Pc) :
    Prompt closes ⟨core.perform party (.goto (.wait site ticket spins)), own⟩ choice
      ⟨core.perform party (.goto next), own⟩ := by
  constructor
  · cases choice with
    | write payload fresh => exact absurd rfl (calls payload fresh)
    | _ => trivial
  · intro move moves label taken
    rw [goes (State.perform_pc_self core party _)] at moves
    cases moves
    cases taken
    exact timely_spin close spins

/-! ## A stream that stalls -/

/-- The steps that do not come from outside. -/
def insideChoices : List (Choice (Fin 1) (Fin 2) (Fin 1)) :=
  [.thread 0 .receive, .thread 0 (.run false), .thread 0 .finish, .thread 1 .receive,
    .thread 1 (.run false), .thread 1 .finish, .reader 0 (.run false), .reader 0 .store,
    .reader 0 .copy, .reader 0 .drop, .reader 0 .finish, .stopping 0 false, .stopped 0]

theorem mem_insideChoices {choice : Choice (Fin 1) (Fin 2) (Fin 1)} (inside : ¬ choice.Outside) :
    choice ∈ insideChoices := by
  cases choice with
  | write payload fresh | stop stopper => exact absurd trivial inside
  | thread thread choice =>
      cases choice with
      | run spurious =>
          cases spurious with
          | true => exact absurd rfl inside
          | false => fin_cases thread <;> simp [insideChoices]
      | receive | finish => fin_cases thread <;> simp [insideChoices]
  | reader reader choice =>
      fin_cases reader
      cases choice with
      | run spurious =>
          cases spurious with
          | true => exact absurd rfl inside
          | false => simp [insideChoices]
      | new | read block => exact absurd trivial inside
      | store | copy | drop | finish => simp [insideChoices]
  | stopping stopper spurious =>
      fin_cases stopper
      cases spurious with
      | true => exact absurd rfl inside
      | false => simp [insideChoices]
  | stopped stopper =>
      fin_cases stopper
      simp [insideChoices]

theorem atRest_of_insideChoices {closes : Fin 1 → Bool} {state : Whole (Fin 1) (Fin 2) (Fin 1)}
    (none : ∀ choice ∈ insideChoices,
      ((system (Fin 1) (Fin 2) closes).step state choice).isNone = true) :
    AtRest closes state :=
  fun choice inside => Option.isNone_iff_eq_none.mp (none choice (mem_insideChoices inside))

/-- The reader releases its guard between the thread's look at the readers word and its
reading of the ticket; then both are about to sleep. -/
def stalling : Whole (Fin 1) (Fin 2) (Fin 1) :=
  (system (Fin 1) (Fin 2) fun _ => true).finish unwritten
    (.reader 0 .new :: readerRuns 2 ++ .reader 0 .finish :: .write [7] 0 :: .write [8] 0 ::
      writingOne 15 ++ .thread 0 .finish :: .reader 0 (.read true) :: readerRuns 5 ++
        [.reader 0 .store, .reader 0 .copy] ++ writingOne 4 ++ .reader 0 .drop :: readerRuns 4 ++
      .reader 0 .finish :: List.replicate 4 (.thread 0 (.run false)) ++
        .reader 0 (.read true) :: readerRuns 2) (by decide +kernel)

/-- The thread sleeps. -/
def halfStalled : Whole (Fin 1) (Fin 2) (Fin 1) :=
  ⟨stalling.core.perform (.thread 0) (.goto (.parked (.backpressure (.slice [8])) 1)), stalling.own⟩

/-- Both sleep. -/
def stalled : Whole (Fin 1) (Fin 2) (Fin 1) :=
  ⟨halfStalled.core.perform (.reader 0) (.goto (.parked (.reader 1 true) 2)), halfStalled.own⟩

/-- The stream is at rest with its last payload undelivered: the thread sleeps in the
backpressure loop. -/
theorem stalled_at_rest :
    (stalled.own.readers 0).received = payloads stalled.core ∧ payloads stalled.core = [[7]] ∧
      stalled.own.accepted = [[7], [8]] ∧ ∃ thread data writer ticket,
        (stalled.own.threads thread).stage = .writing data ∧
          stalled.core.pc (.thread thread) = .parked (.backpressure writer) ticket := by
  have almost : (system (Fin 1) (Fin 2) fun _ => true).ReachableVia (Prompt fun _ => true) stalling :=
    System.reachableVia_finish (initial_unwritten _) _ (by decide +kernel)
  have half : (system (Fin 1) (Fin 2) fun _ => true).ReachableVia (Prompt fun _ => true)
      halfStalled := by
    have waits : stalling.core.pc (.thread 0) = .wait (.backpressure (.slice [8])) 1 1000 := by
      decide +kernel
    exact parks_of_spin almost thread_goes waits (by decide +kernel)
      (prompt_spin thread_goes (fun _ _ is => by cases is) (by decide +kernel))
  have reachable : (system (Fin 1) (Fin 2) fun _ => true).ReachableVia (Prompt fun _ => true)
      stalled := by
    have waits : halfStalled.core.pc (.reader 0) = .wait (.reader 1 true) 2 1000 := by decide +kernel
    exact parks_of_spin half reader_goes waits (by decide +kernel)
      (prompt_spin reader_goes (fun _ _ is => by cases is) (by decide +kernel))
  have rest : AtRest (fun _ => true) stalled := atRest_of_insideChoices (by decide +kernel)
  have facts : payloads stalled.core = [[7]] ∧ stalled.own.accepted = [[7], [8]] := by
    decide +kernel
  obtain ⟨received, delivered⟩ := delivered_at_rest reachable rest (by decide +kernel)
  refine ⟨received 0 (by decide +kernel), facts.1, facts.2, delivered.resolve_left ?_⟩
  rw [facts.1, facts.2]
  decide

end RsIpc.WriteAsync
