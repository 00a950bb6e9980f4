import RsIpc.Python.ReaderThreads
import RsIpc.SharedMessage.Linearization

/-!
# Delivery through reader threads

What was accepted arrives in the queue of every `ReadAsync` instance, once and in order.
A reader thread goes back into `read` by itself, so a stream at rest has queued
everything.
-/

namespace RsIpc

/-! ## The drop of a guard -/

/-- The points after the drop of a guard, up to its return. -/
def Pc.releasing : Pc → Bool
  | .update (.release _) | .cas (.release _) _ | .notify .released | .wake .released | .done _ => true
  | _ => false

theorem WaitSite.releasing_resume (site : WaitSite) (ticket : Nat) :
    site.resume.releasing = (Pc.parked site ticket).releasing := by
  cases site <;> rfl

theorem UpdateSite.releasing_after (sequence : BitVec 64) (policy : ReadersStateCount) :
    ((UpdateSite.release sequence).after policy).releasing = true := by
  change Pc.releasing (if policy.activeReaders = 0 then .notify .released else .done .unit) = true
  split <;> rfl

theorem releasing_attempt (sequence packed : BitVec 64) :
    (attempt (.release sequence) packed).pc.releasing = true := by
  simp only [attempt, UpdateSite.mutator, Mutator.run]
  split
  · exact UpdateSite.releasing_after sequence _
  · rfl

/-- The drop of a guard goes on until it is done. -/
theorem releasing_of_run {msg : SharedMessage} {spurious : Bool} {pc : Pc} {act : Act}
    (taken : next msg (if spurious then .spurious else .go) pc = some act)
    (releasing : pc.releasing = true) (running : ∀ outcome, pc ≠ .done outcome) :
    act.pc.releasing = true := by
  cases pc with
  | update site =>
      cases site with
      | release sequence =>
          cases spurious with
          | true => cases taken
          | false =>
              cases taken
              exact releasing_attempt sequence _
      | _ => cases releasing
  | cas site packed =>
      cases site with
      | release sequence =>
          have taken : some (casStep msg (.release sequence) packed spurious) = some act := by
            cases spurious <;> exact taken
          cases taken
          simp only [casStep, UpdateSite.mutator, Mutator.run]
          split
          · exact UpdateSite.releasing_after sequence _
          · exact releasing_attempt sequence _
      | _ => cases releasing
  | notify site =>
      cases site with
      | released => cases spurious <;> cases taken; rfl
      | _ => cases releasing
  | wake site =>
      cases site with
      | released => cases spurious <;> cases taken; rfl
      | _ => cases releasing
  | done outcome => exact absurd rfl (running outcome)
  | _ => cases releasing

namespace ReaderThreads

open Transition WriteAsync Protocol

universe u

variable {ρ τ σ : Type u} [DecidableEq ρ] [DecidableEq τ] [DecidableEq σ] {closes : σ → Bool}
  {threads : ρ → Bool} {coreOk : StepCondition (State (Party ρ τ σ)) (Party ρ τ σ × RsIpc.Choice)}

/-! ## Who takes a step -/

/-- A step that is not about a reader instance is taken by another party. -/
theorem took_of_other {source target : WriteAsync.Whole ρ τ σ} {choice : WriteAsync.Choice ρ τ σ}
    (step : (WriteAsync.system ρ τ closes).step source choice = some target) {me : ρ}
    (other : reader? choice ≠ some me) :
    ∃ (party : Party ρ τ σ) (taken : Option RsIpc.Choice), .reader me ≠ party ∧
      (memory ρ τ σ).Took source.core (taken.map fun taken => (party, taken)) target.core := by
  cases WriteAsync.moves_of_step step with
  | write payload fresh fits writes =>
      exact ⟨.thread fresh, none, by simp, rfl⟩
  | @thread thread choice taken next moves core took =>
      exact ⟨.thread thread, taken, by simp, took⟩
  | @reader reader choice taken next moves core took =>
      refine ⟨.reader reader, taken, ?_, took⟩
      rintro ⟨⟩
      exact other rfl
  | stop stopper taken => exact ⟨.stopper stopper, some _, by simp, taken⟩
  | stopping stopper spurious running taken =>
      exact ⟨.stopper stopper, some _, by simp, taken⟩
  | stopped stopper outcome done taken =>
      exact ⟨.stopper stopper, some _, by simp, taken⟩

/-- The instance of a reader thread stays as it is, or it moves. -/
inductive Goes (source target : Whole ρ τ σ) (me : ρ) : Prop
  | stays {party : Party ρ τ σ} {taken : Option RsIpc.Choice} (ne : .reader me ≠ party)
      (same : target.own.queued me = source.own.queued me)
      (took : (memory ρ τ σ).Took source.core (taken.map fun taken => (party, taken)) target.core)
  | moves (choice : QueuedChoice) {taken : Option RsIpc.Choice}
      (move : (source.own.queued me).move source.core.msg (source.core.pc (.reader me)) choice =
        some (taken, target.own.queued me))
      (took : (memory ρ τ σ).Took source.core (taken.map fun taken => (.reader me, taken))
        target.core)

theorem goes_of_step {source target : Whole ρ τ σ} {choice : Choice ρ τ σ}
    (step : (system ρ τ closes threads).step source choice = some target) {me : ρ}
    (here : threads me = true) : Goes source target me := by
  obtain ⟨core, own⟩ := source
  obtain ⟨targetCore, targetOwn⟩ := target
  obtain ⟨taken, moves, took⟩ := System.joint_took step
  cases choice with
  | base choice =>
      simp only [client, Option.ite_none_left_eq_some, Bool.not_eq_true] at moves
      obtain ⟨other, moves⟩ := moves
      obtain ⟨⟨call, base⟩, baseMoves, is⟩ := Option.map_eq_some_iff.mp moves
      cases is
      have step : (WriteAsync.system ρ τ closes).step ⟨core, own.base⟩ choice =
          some ⟨targetCore, base⟩ := System.step_joint baseMoves took
      have apart : reader? choice ≠ some me := by
        intro is
        rw [is] at other
        exact absurd here (Bool.eq_false_iff.mp other)
      obtain ⟨party, taken, ne, took⟩ := took_of_other step apart
      exact .stays ne rfl took
  | queued reader choice =>
      simp only [client, Option.ite_none_right_eq_some] at moves
      obtain ⟨_, moves⟩ := moves
      obtain ⟨⟨call, next⟩, move, is⟩ := Option.map_eq_some_iff.mp moves
      cases is
      by_cases same : me = reader
      · subst same
        exact .moves choice (by simpa using move) took
      · exact .stays (fun is => same (Party.reader.inj is)) (Function.update_of_ne same _ _) took

/-! ## Where the reader threads are -/

/-- Data is always shown, so no thread panics; while its guard is dropped a thread is in
that call, and when it has ended it is in none. -/
def Stage.Fits (pc : Pc) : Stage → Prop
  | .copied _ data => data ≠ none
  | .dropping _ data => data ≠ none ∧ pc.releasing = true
  | .panicked _ => False
  | .ended => pc = .idle
  | .absent | .registering | .looping => True

theorem Stage.fits_of_view (stage : Stage) {pc other : Pc} (fits : stage.Fits pc)
    (releasing : other.releasing = pc.releasing)
    (idle : decide (other = .idle) = decide (pc = .idle)) : stage.Fits other := by
  cases stage with
  | dropping sequence data => exact ⟨fits.1, releasing.trans fits.2⟩
  | ended =>
      rw [show pc = .idle from fits] at idle
      change other = .idle
      exact of_decide_eq_true (idle.trans (decide_eq_true rfl))
  | absent | registering | looping | copied _ _ | panicked _ => exact fits

structure Queued.Sound (queued : Queued) (core : State (Party ρ τ σ)) (me : ρ) : Prop where
  fits : queued.stage.Fits (core.pc (.reader me))
  stopped : queued.stage = .ended → core.msg.isStopped = true

/-- What the thread or its caller does keeps it, if a guard shows data. -/
theorem Queued.Sound.step {queued next : Queued} {source target : State (Party ρ τ σ)} {me : ρ}
    {choice : QueuedChoice} {taken : Option RsIpc.Choice} (sound : queued.Sound source me)
    (move : queued.move source.msg (source.pc (.reader me)) choice = some (taken, next))
    (took : (memory ρ τ σ).Took source (taken.map fun taken => (.reader me, taken)) target)
    (shows : ∀ number, source.pc (.reader me) = .readGuard number → source.msg.dataRef ≠ none)
    (holds : ∀ sequence data, queued.stage = .copied sequence data →
      ∃ number, source.pc (.reader me) = .readGuard number) : next.Sound target me := by
  have later : source.msg.isStopped = true → target.msg.isStopped = true := isStopped_of_took took
  cases choice with
  | new =>
      simp only [Queued.move, Option.ite_none_right_eq_some] at move
      cases move.2
      exact ⟨trivial, fun ended => by cases ended⟩
  | check =>
      simp only [Queued.move, Option.ite_none_right_eq_some] at move
      obtain ⟨⟨looping, idle⟩, move⟩ := move
      split at move
      · rename_i stopped
        cases move
        rw [show target = source from took]
        exact ⟨idle, fun _ => stopped⟩
      · cases move
        refine ⟨?_, fun ended => later (sound.stopped ended)⟩
        rw [looping]
        trivial
  | run spurious =>
      obtain ⟨call, proceeds, is⟩ := Option.map_eq_some_iff.mp move
      cases is
      obtain ⟨running, rfl⟩ := proceed_eq_some_iff.mp proceeds
      obtain ⟨act, chosen, rfl⟩ := State.step_eq_some_iff.mp took
      refine ⟨?_, fun ended => later (sound.stopped ended)⟩
      have fits := sound.fits
      rw [State.perform_pc_self]
      cases stage : queued.stage with
      | dropping sequence data =>
          rw [stage] at fits
          exact ⟨fits.1, releasing_of_run chosen fits.2 running⟩
      | ended =>
          rw [stage] at fits
          exact absurd fits (not_idle_of_run chosen)
      | copied sequence data =>
          rw [stage] at fits
          exact fits
      | panicked sequence =>
          rw [stage] at fits
          exact fits
      | absent | registering | looping => trivial
  | copy =>
      simp only [Queued.move] at move
      split at move
      · rename_i sequence guard
        rw [Option.ite_none_right_eq_some] at move
        cases move.2
        exact ⟨shows sequence guard, fun ended => by cases ended⟩
      · cases move
  | drop =>
      simp only [Queued.move] at move
      split at move
      · rename_i sequence data copied
        cases move
        obtain ⟨number, guard⟩ := holds sequence data copied
        obtain ⟨act, chosen, rfl⟩ := State.step_eq_some_iff.mp took
        have fits := sound.fits
        rw [copied] at fits
        rw [guard] at chosen
        cases chosen
        refine ⟨⟨fits, ?_⟩, fun ended => by cases ended⟩
        rw [State.perform_pc_self]
        rfl
      · cases move
  | finish =>
      simp only [Queued.move] at move
      split at move
      · rename_i outcome done
        cases move
        have fits := sound.fits
        rw [done] at fits
        unfold Queued.finish
        cases stage : queued.stage with
        | registering =>
            cases outcome <;> exact ⟨trivial, fun ended => by cases ended⟩
        | dropping sequence data =>
            cases data with
            | none =>
                rw [stage] at fits
                exact absurd rfl fits.1
            | some data => exact ⟨trivial, fun ended => by cases ended⟩
        | copied sequence data =>
            obtain ⟨number, guard⟩ := holds sequence data stage
            cases done.symm.trans guard
        | panicked sequence =>
            rw [stage] at fits
            exact fits.elim
        | ended =>
            rw [stage] at fits
            cases fits
        | absent | looping =>
            refine ⟨?_, fun ended => ?_⟩
            · rw [stage]
              trivial
            · cases stage.symm.trans ended
      · cases move
  | receive block =>
      have kept : next.stage = queued.stage ∧ taken = none := by
        simp only [Queued.move] at move
        split at move
        · cases move
          exact ⟨rfl, rfl⟩
        · rw [Option.ite_none_right_eq_some] at move
          cases move.2
          exact ⟨rfl, rfl⟩
      obtain ⟨stage, rfl⟩ := kept
      rw [show target = source from took]
      exact ⟨stage ▸ sound.fits, fun ended => sound.stopped (stage ▸ ended)⟩

section Fintype

variable [Fintype ρ] [Fintype τ] [Fintype σ] {state : Whole ρ τ σ}

omit [Fintype ρ] [Fintype τ] [Fintype σ] in
theorem plain_registered
    (reachable : (system ρ τ closes threads).ReachableVia (Meets closes threads coreOk) state) :
    (WriteAsync.system ρ τ closes).ReachableVia WriteAsync.AllRegistered (plain threads state) :=
  (plain_of_reachable reachable).mono fun meets => meets.1

omit [Fintype ρ] [Fintype τ] [Fintype σ] in
/-- A thread that has copied still has its guard. -/
theorem guard_of_copied
    (reachable : (system ρ τ closes threads).ReachableVia (Meets closes threads coreOk) state)
    {me : ρ} (here : threads me = true) {sequence : BitVec 64} {data : Option (List UInt8)}
    (copied : (state.own.queued me).stage = .copied sequence data) :
    ∃ number, state.core.pc (.reader me) = .readGuard number := by
  have fits : (state.own.reader threads me).stage.Fits state.core.msg.capacity
      (state.core.pc (.reader me)) := (placed_of_reachable (plain_registered reachable)).fits (.reader me)
  have is : (state.own.reader threads me).stage = .copied := by
    rw [Instance.reader, if_pos here]
    exact congrArg Stage.plain copied
  rw [is] at fits
  exact fits

theorem sound_of_reachable
    (reachable : (system ρ τ closes threads).ReachableVia (Meets closes threads coreOk) state)
    {me : ρ} (here : threads me = true) : (state.own.queued me).Sound state.core me := by
  refine reachable.invariant (fun state => (state.own.queued me).Sound state.core me) ?_ ?_
  · rintro ⟨core, own⟩ ⟨_, rfl⟩
    exact ⟨trivial, fun ended => by cases ended⟩
  · rintro source choice target before sound step _
    have registered := plain_registered before
    cases goes_of_step step here with
    | stays ne same took =>
        rw [same]
        refine ⟨Stage.fits_of_view _ sound.fits ?_ ?_, fun ended => ?_⟩
        · exact view_of_took Pc.releasing WaitSite.releasing_resume took ne
        · exact view_of_took (fun pc => decide (pc = .idle)) WaitSite.idle_resume took ne
        · exact isStopped_of_took took (sound.stopped ended)
    | moves choice move took =>
        refine sound.step move took ?_ ?_
        · intro number guard
          obtain ⟨bytes, _, shown⟩ := shows_last (clean_of_reachable registered) guard
          rw [show source.core.msg.dataRef = some bytes from shown]
          exact Option.some_ne_none bytes
        · exact fun sequence data => guard_of_copied before here

/-! ## Delivery -/

end Fintype

/-! ## At rest -/

/-- A call of the instance that writes or of a `ReadSync` reader, the construction of a
`ReadAsync` reader, a call of its `read`, or a spurious failure or wake-up. -/
def Choice.Outside : Choice ρ τ σ → Prop
  | .base choice => choice.Outside
  | .queued _ .new | .queued _ (.receive _) => True
  | .queued _ (.run spurious) => spurious = true
  | .queued _ _ => False

/-- Whatever happens next comes from outside. -/
def AtRest (closes : σ → Bool) (threads : ρ → Bool) (state : Whole ρ τ σ) : Prop :=
  ∀ choice, ¬ choice.Outside → (system ρ τ closes threads).step state choice = none

section Rest

variable {state : Whole ρ τ σ}

theorem AtRest.queued_blocked (rest : AtRest closes threads state) {me : ρ}
    (here : threads me = true) (choice : QueuedChoice)
    (inside : ¬ (Choice.queued me choice : Choice ρ τ σ).Outside) {taken : Option RsIpc.Choice}
    {next : Queued} (move : (state.own.queued me).move state.core.msg
      (state.core.pc (.reader me)) choice = some (taken, next))
    {target : State (Party ρ τ σ)}
    (took : (memory ρ τ σ).Took state.core (taken.map fun taken => (.reader me, taken)) target) :
    False := by
  have moves : client closes threads state.core state.own (.queued me choice) =
      some (taken.map fun taken => (.reader me, taken),
        { state.own with queued := Function.update state.own.queued me next }) := by
    simp only [client, if_pos here, move, Option.map_some]
  have step : (system ρ τ closes threads).step state (.queued me choice) = some _ :=
    System.step_joint moves took
  rw [rest _ inside] at step
  cases step

/-- A reader thread cannot take the next step of its call, or leave it. -/
theorem AtRest.rests (rest : AtRest closes threads state) {me : ρ} (here : threads me = true) :
    (state.core.pc (.reader me)).Rests state.core.msg := by
  refine rests_of_step_eq_none (Option.eq_none_iff_forall_ne_some.mpr fun target step => ?_)
  have took : (memory ρ τ σ).Took state.core
      ((some .go).map fun taken => (.reader me, taken)) target := step
  by_cases done : ∃ outcome, state.core.pc (.reader me) = .done outcome
  · obtain ⟨outcome, done⟩ := done
    have move : (state.own.queued me).move state.core.msg (state.core.pc (.reader me)) .finish =
        some (some .go, (state.own.queued me).finish outcome) := by
      simp only [Queued.move, done]
    exact rest.queued_blocked here .finish id move took
  · have move : (state.own.queued me).move state.core.msg (state.core.pc (.reader me))
        (.run false) = some (some .go, state.own.queued me) := by
      simp only [Queued.move, proceed_of_not_done fun outcome is => done ⟨outcome, is⟩,
        Option.map_some]
    exact rest.queued_blocked here (.run false) Bool.false_ne_true move took

theorem AtRest.not_copied (rest : AtRest closes threads state) {me : ρ} (here : threads me = true)
    {sequence : BitVec 64} {data : Option (List UInt8)} {number : BitVec 64}
    (holds : state.core.pc (.reader me) = .readGuard number) :
    (state.own.queued me).stage ≠ .copied sequence data := by
  intro copied
  have move : (state.own.queued me).move state.core.msg (state.core.pc (.reader me)) .drop =
      some (some .drop, { state.own.queued me with stage := .dropping sequence data }) := by
    simp only [Queued.move, copied]
  have took : (memory ρ τ σ).Took state.core ((some .drop).map fun taken => (.reader me, taken))
      (state.core.perform (.reader me) (.goto (.update (.release number)))) :=
    State.step_eq_some_iff.mpr ⟨_, by rw [holds]; rfl, rfl⟩
  exact rest.queued_blocked here .drop id move took

/-- A reader thread that is there rests inside `read`. -/
theorem AtRest.looping (rest : AtRest closes threads state) {me : ρ} (here : threads me = true)
    (sound : (state.own.queued me).Sound state.core me)
    (holds : ∀ sequence data, (state.own.queued me).stage = .copied sequence data →
      ∃ number, state.core.pc (.reader me) = .readGuard number)
    (running : state.core.msg.isStopped = false)
    (there : (state.own.queued me).stage.plain.Registered) :
    (state.own.queued me).stage = .looping ∧ state.core.pc (.reader me) ≠ .idle := by
  have fits := sound.fits
  cases stage : (state.own.queued me).stage with
  | absent =>
      rw [stage] at there
      exact absurd rfl there.1
  | registering =>
      rw [stage] at there
      exact absurd rfl there.2
  | looping =>
      refine ⟨rfl, fun idle => ?_⟩
      have move : (state.own.queued me).move state.core.msg (state.core.pc (.reader me)) .check =
          some (some (.invoke (.read (state.own.queued me).lastReaderVersion true)),
            state.own.queued me) := by
        simp [Queued.move, stage, idle, running]
      have took : (memory ρ τ σ).Took state.core
          ((some (.invoke (.read (state.own.queued me).lastReaderVersion true))).map
            fun taken => (.reader me, taken))
          (state.core.perform (.reader me)
            (.goto (.readTicket (state.own.queued me).lastReaderVersion true))) :=
        State.step_eq_some_iff.mpr ⟨_, by rw [idle]; rfl, rfl⟩
      exact rest.queued_blocked here .check id move took
  | copied sequence data =>
      obtain ⟨number, guard⟩ := holds sequence data stage
      exact absurd stage (rest.not_copied here guard)
  | dropping sequence data =>
      rw [stage] at fits
      have rests := rest.rests here
      have releasing := fits.2
      generalize state.core.pc (.reader me) = pc at rests releasing
      cases rests <;> cases releasing
  | panicked sequence =>
      rw [stage] at fits
      exact fits.elim
  | ended =>
      rw [sound.stopped stage] at running
      cases running

/-- Seen as a stream with `ReadSync` readers only, the stream rests as well. -/
theorem AtRest.plain (rest : AtRest closes threads state)
    (sound : ∀ me, threads me = true → (state.own.queued me).Sound state.core me) :
    WriteAsync.AtRest closes (plain threads state) := by
  refine fun choice inside => Option.eq_none_iff_forall_ne_some.mpr fun target step => ?_
  obtain ⟨core, own⟩ := target
  obtain ⟨taken, moves, took⟩ := System.joint_took step
  by_cases other : (reader? choice).any threads = false
  · change WriteAsync.client closes state.core (state.own.plain threads) choice = _ at moves
    rw [Instance.plain_client state.own other] at moves
    obtain ⟨⟨call, base⟩, baseMoves, is⟩ := Option.map_eq_some_iff.mp moves
    have client : client closes threads state.core state.own (.base choice) =
        some (call, { state.own with base := base }) := by
      simp [client, other, baseMoves]
    cases is
    have step : (system ρ τ closes threads).step state (.base choice) = some _ :=
      System.step_joint client took
    rw [rest (.base choice) inside] at step
    cases step
  · cases choice with
    | reader me choice =>
        have here : threads me = true := by simpa [reader?] using other
        obtain ⟨⟨call, next⟩, move, is⟩ := Option.map_eq_some_iff.mp moves
        have is' : (ReaderThreads.plain threads state).own.readers me =
            (state.own.queued me).plain := if_pos here
        rw [is'] at move
        cases is
        have sound := sound me here
        cases readerMoves_of_move move with
        | new absent => exact inside trivial
        | read block ready => exact inside trivial
        | run spurious runs =>
            have calm : spurious = false := by simpa [WriteAsync.Choice.Outside] using inside
            subst calm
            have runs : ∀ outcome, state.core.pc (.reader me) ≠ .done outcome := runs
            have move : (state.own.queued me).move state.core.msg (state.core.pc (.reader me))
                (.run false) = some (some .go, state.own.queued me) := by
              simp only [Queued.move, proceed_of_not_done runs, Option.map_some]
            exact rest.queued_blocked here (.run false) Bool.false_ne_true move took
        | store number holds ready =>
            have stage : (state.own.queued me).stage = .looping := by
              have fits := sound.fits
              rw [show state.core.pc (.reader me) = .readGuard number from holds] at fits
              change (state.own.queued me).stage.plain = .ready at ready
              cases stage : (state.own.queued me).stage with
              | looping => rfl
              | dropping sequence data =>
                  rw [stage] at fits
                  cases fits.2
              | panicked sequence =>
                  rw [stage] at fits
                  exact fits.elim
              | ended =>
                  rw [stage] at fits
                  cases fits
              | absent | registering | copied _ _ =>
                  rw [stage] at ready
                  cases ready
            have move : (state.own.queued me).move state.core.msg (state.core.pc (.reader me))
                .copy = some (none, { state.own.queued me with
                  stage := .copied number state.core.msg.dataRef }) := by
              rw [show state.core.pc (.reader me) = .readGuard number from holds]
              simp only [Queued.move, stage, if_true]
            exact rest.queued_blocked here .copy id move took
        | copy stored =>
            change (state.own.queued me).stage.plain = .stored at stored
            cases stage : (state.own.queued me).stage <;> rw [stage] at stored <;> cases stored
        | drop copied =>
            change (state.own.queued me).stage.plain = .copied at copied
            cases stage : (state.own.queued me).stage with
            | copied sequence data =>
                have move : (state.own.queued me).move state.core.msg
                    (state.core.pc (.reader me)) .drop = some (some .drop,
                      { state.own.queued me with stage := .dropping sequence data }) := by
                  simp only [Queued.move, stage]
                exact rest.queued_blocked here .drop id move took
            | _ =>
                rw [stage] at copied
                cases copied
        | finish outcome done =>
            have move : (state.own.queued me).move state.core.msg (state.core.pc (.reader me))
                .finish = some (some .go, (state.own.queued me).finish outcome) := by
              rw [show state.core.pc (.reader me) = .done outcome from done]
              rfl
            exact rest.queued_blocked here .finish id move took
    | write payload fresh | thread thread choice | stop stopper | stopping stopper spurious
    | stopped stopper => exact other rfl

/-- What the memory needs to wake everybody up: a ticket is not out of date by 2^32 when
its party falls asleep, and the first look of the backpressure loop is still right when
its ticket is read. -/
def Attentively : StepCondition (State (Party ρ τ σ)) (Party ρ τ σ × RsIpc.Choice) :=
  fun source label target => Timely source label target ∧ FirstLookCurrent source label target

instance [Fintype ρ] [Fintype τ] [Fintype σ] (source : State (Party ρ τ σ))
    (label : Party ρ τ σ × RsIpc.Choice) (target : State (Party ρ τ σ)) :
    Decidable (Attentively source label target) :=
  inferInstanceAs (Decidable (_ ∧ _))

variable [Fintype ρ] [Fintype τ] [Fintype σ]

end Rest

/-! ## A reader thread at work -/

/-- The reader takes the given number of steps in its call. -/
def queuedRuns (count : Nat) : List (Choice (Fin 1) (Fin 2) (Fin 1)) :=
  List.replicate count (.queued 0 (.run false))

/-- The same memory, and one `ReadAsync` instance. -/
def unqueued : Whole (Fin 1) (Fin 2) (Fin 1) :=
  ⟨unwritten.core, .start (Fin 1) (Fin 2)⟩

theorem initial_unqueued :
    (system (Fin 1) (Fin 2) (fun _ : Fin 1 => true) fun _ => true).initial unqueued :=
  ⟨(initial_unwritten fun _ => true).1, rfl⟩

/-- The thread queues the payload, goes back into `read`, and is about to sleep; the
caller has taken the payload from the queue. -/
def queueing : Whole (Fin 1) (Fin 2) (Fin 1) :=
  (system (Fin 1) (Fin 2) (fun _ => true) fun _ => true).finish unqueued
    (.queued 0 .new :: queuedRuns 2 ++ .queued 0 .finish :: .base (.write [7] 0) ::
      (writingOne 15).map .base ++ .base (.thread 0 .finish) :: .queued 0 .check :: queuedRuns 5 ++
        .queued 0 .copy :: .queued 0 .drop :: queuedRuns 4 ++
      .queued 0 .finish :: .queued 0 (.receive true) :: .queued 0 .check :: queuedRuns 2)
    (by decide +kernel)

/-- The thread sleeps. -/
def allQueued : Whole (Fin 1) (Fin 2) (Fin 1) :=
  ⟨queueing.core.perform (.reader 0) (.goto (.parked (.reader 1 true) 1)), queueing.own⟩

omit [DecidableEq σ] in
theorem queued_goes {core : State (Party ρ τ σ)} {own : Instance ρ τ} {me : ρ} {site : WaitSite}
    {ticket spins : Nat} (here : threads me = true)
    (waits : core.pc (.reader me) = .wait site ticket spins) :
    client closes threads core own (.queued me (.run false)) =
      some (some (.reader me, .go), own) := by
  simp [client, here, Queued.move, proceed, waits]

/-- A step of a spin phase meets the conditions if the count is close to the ticket. -/
theorem meets_spin {core : State (Party ρ τ σ)} {own : Instance ρ τ} {me : ρ} {site : WaitSite}
    {ticket : Nat} (here : threads me = true)
    (close : core.msg.notified site.condvar < ticket + 2 ^ 32) (spins : Nat) (next : Pc) :
    Meets closes threads Attentively
      ⟨core.perform (.reader me) (.goto (.wait site ticket spins)), own⟩ (.queued me (.run false))
      ⟨core.perform (.reader me) (.goto next), own⟩ := by
  refine ⟨trivial, fun move moves label taken => ?_⟩
  rw [queued_goes here (State.perform_pc_self core _ _)] at moves
  cases moves
  cases taken
  refine ⟨timely_spin close spins, fun readerState look => ?_⟩
  rw [State.perform_pc_self] at look
  cases look

/-- The steps that do not come from outside. -/
def insideChoices : List (Choice (Fin 1) (Fin 2) (Fin 1)) :=
  WriteAsync.insideChoices.map .base ++ [.queued 0 .check, .queued 0 (.run false),
    .queued 0 .copy, .queued 0 .drop, .queued 0 .finish]

theorem mem_insideChoices {choice : Choice (Fin 1) (Fin 2) (Fin 1)} (inside : ¬ choice.Outside) :
    choice ∈ insideChoices := by
  cases choice with
  | base choice =>
      exact List.mem_append_left _ (List.mem_map_of_mem (WriteAsync.mem_insideChoices inside))
  | queued reader choice =>
      fin_cases reader
      apply List.mem_append_right
      cases choice with
      | run spurious =>
          cases spurious with
          | true => exact absurd rfl inside
          | false => simp
      | new | receive block => exact absurd trivial inside
      | check | copy | drop | finish => simp

end ReaderThreads

end RsIpc
