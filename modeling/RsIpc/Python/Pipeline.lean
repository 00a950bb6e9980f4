import RsIpc.Python.Streaming
import RsIpc.Python.WriteSync

/-!
# The queue and its threads

Every accepted payload is published, in the hands of the background thread, or in its
queue, in the order in which they were accepted.  Only the first thread publishes: the
ones that come after `stop` find the memory stopped.
-/

namespace RsIpc

open Transition

/-- The call is about to return without having published. -/
def Pc.GivesUp : Pc → Prop
  | .clearWriting | .abandon _ => True
  | .unlock outcome | .done outcome => outcome.returned = none
  | _ => False

theorem WaitSite.givesUp_resume (site : WaitSite) (ticket : Nat) :
    site.resume.GivesUp = (Pc.parked site ticket).GivesUp := by
  cases site <;> rfl

/-- `write_slice` gives up because the memory is stopped. -/
theorem Takes.givesUp {msg : SharedMessage} {pc : Pc} {act : Act} (takes : Takes msg pc act)
    {newData : List UInt8} (fits : newData.length ≤ msg.capacity)
    (within : pc.Within msg.capacity (.writeSlice newData)) (after : act.pc.GivesUp) :
    pc.GivesUp ∨ msg.isStopped = true := by
  cases takes with
  | refuse writer stopped | giveUp writer ticket stopped | drainGiveUp writer ticket stopped =>
      exact .inr stopped
  | clearWriting | abandon outcome => exact .inl trivial
  | unlock outcome => exact .inl after
  | drainedLarge slice ticket none large =>
      cases within
      exact absurd fits (Nat.not_le_of_lt large)
  | waitReturns site ticket spins changed | wakeUp site ticket => cases site <;> cases after
  | wake site =>
      cases site with
      | released | stopWriters => cases within
      | _ => cases after
  | panic site at_ membership =>
      rcases at_ with rfl | ⟨packed, rfl⟩ <;> rcases membership with rfl | rfl <;> cases within
  | update site policy run =>
      cases site with
      | resetConsumed size => cases after
      | _ => cases within
  | unchangedTarget count at_ same => rcases at_ with rfl | ⟨packed, rfl⟩ <;> cases within
  | invoke operation => cases within
  | readEnded lastSeenSeq block ticket stopped same | readNothing lastSeenSeq ticket running same =>
      cases within
  | refuseSize size large | dropWrite => cases within
  | finish outcome => cases after
  | _ => cases after

namespace WriteAsync

open Protocol

universe u

variable {ρ τ σ : Type u}

/-- Before the lock: a call that finds the memory stopped gets no further. -/
def Aside (pc : Pc) : Prop :=
  pc = .idle ∨ (∃ writer, pc = .entryCheck writer) ∨ pc = .done .none

theorem aside_resume (site : WaitSite) (ticket : Nat) :
    Aside site.resume = Aside (.parked site ticket) := by
  have never : ∀ pc : Pc, pc = site.resume ∨ pc = .parked site ticket → ¬ Aside pc := by
    rintro pc (rfl | rfl) (is | ⟨writer, is⟩ | is) <;> cases site <;> cases is
  exact propext (iff_of_false (never _ (.inl rfl)) (never _ (.inr rfl)))

theorem Aside.phase {pc : Pc} (aside : Aside pc) : pc.phase = .outside := by
  rcases aside with rfl | ⟨writer, rfl⟩ | rfl <;> rfl

/-- The payloads that a thread has taken on and not published, and those in its queue. -/
def Thread.pending (thread : Thread) (pc : Pc) : List (List UInt8) :=
  match thread.stage with
  | .writing data => if pc.returning = none then data :: thread.queue else thread.queue
  | _ => thread.queue

theorem Thread.pending_resume (thread : Thread) (site : WaitSite) (ticket : Nat) :
    thread.pending site.resume = thread.pending (.parked site ticket) := by
  unfold pending
  rw [WaitSite.returning_resume site ticket]

/-- The payloads published so far. -/
def payloads (core : State (Party ρ τ σ)) : List (List UInt8) :=
  (History.published core.log).map Message.bytes

/-! ## The steps of a thread -/

/-- A thread is there from its creation on. -/
theorem ThreadMoves.begun {closed : Bool} {pc : Pc} {thread next : Thread} {choice : ThreadChoice}
    {taken : Option RsIpc.Choice} (moves : ThreadMoves closed pc thread choice taken next)
    {capacity : Nat} (fits : thread.stage.Fits capacity pc) (begun : next.stage ≠ .absent) :
    thread.stage ≠ .absent := by
  intro absent
  cases moves with
  | receive data queue | hangUp gone => cases absent
  | run _ spurious running => exact begun absent
  | written _ number done | refused _ outcome done failed =>
      rw [absent, done] at fits
      cases fits

theorem ThreadMoves.stays {closed : Bool} {pc : Pc} {thread next : Thread} {choice : ThreadChoice}
    {taken : Option RsIpc.Choice} (moves : ThreadMoves closed pc thread choice taken next)
    (begun : thread.stage ≠ .absent) : next.stage ≠ .absent := by
  cases moves with
  | run _ spurious running => exact begun
  | _ => nofun

section Steps

variable [DecidableEq ρ] [DecidableEq τ] [DecidableEq σ] {closes : σ → Bool}

theorem payloads_prefix_of_took {source target : State (Party ρ τ σ)} {party : Party ρ τ σ}
    {taken : Option RsIpc.Choice}
    (took : (memory ρ τ σ).Took source (taken.map fun taken => (party, taken)) target) :
    payloads source <+: payloads target := by
  cases taken with
  | none => rw [show target = source from took]
  | some call =>
      unfold payloads
      rcases publishStep_or_same took with ⟨size, publish⟩ | ⟨same, _⟩
      · rw [publish.published, List.map_append]
        exact List.prefix_append _ _
      · rw [same]

/-- A party outside its writing phase publishes nothing. -/
theorem payloads_of_took {source target : State (Party ρ τ σ)} {party : Party ρ τ σ}
    {taken : Option RsIpc.Choice}
    (took : (memory ρ τ σ).Took source (taken.map fun taken => (party, taken)) target)
    (phase : (source.pc party).phase ≠ .writing) : payloads target = payloads source := by
  cases taken with
  | none => rw [show target = source from took]
  | some call => exact congrArg (List.map Message.bytes) (same_of_not_writing took phase).1

theorem isStopped_of_took {source target : State (Party ρ τ σ)} {party : Party ρ τ σ}
    {taken : Option RsIpc.Choice}
    (took : (memory ρ τ σ).Took source (taken.map fun taken => (party, taken)) target)
    (stopped : source.msg.isStopped = true) : target.msg.isStopped = true := by
  cases taken with
  | none =>
      rw [show target = source from took]
      exact stopped
  | some call => exact isStopped_of_step took stopped

/-- Whoever takes a step as a thread is one. -/
theorem ThreadMoves.there {closed : Bool} {source target : State (Party ρ τ σ)} {me : τ}
    {thread next : Thread} {choice : ThreadChoice} {taken : Option RsIpc.Choice}
    (moves : ThreadMoves closed (source.pc (.thread me)) thread choice taken next)
    (took : (memory ρ τ σ).Took source (taken.map fun taken => (.thread me, taken)) target)
    (fits : thread.stage.Fits source.msg.capacity (source.pc (.thread me))) :
    thread.stage ≠ .absent := by
  intro absent
  rw [absent] at fits
  cases moves with
  | receive data queue | hangUp gone => cases absent
  | run _ spurious running =>
      obtain ⟨act, chosen, _⟩ := State.step_eq_some_iff.mp took
      exact not_idle_of_run chosen fits
  | written _ number done | refused _ outcome done failed =>
      rw [done] at fits
      cases fits

/-- A late thread stays aside. -/
theorem ThreadMoves.aside {closed : Bool} {source target : State (Party ρ τ σ)} {me : τ}
    {thread next : Thread} {choice : ThreadChoice} {taken : Option RsIpc.Choice}
    (moves : ThreadMoves closed (source.pc (.thread me)) thread choice taken next)
    (took : (memory ρ τ σ).Took source (taken.map fun taken => (.thread me, taken)) target)
    (stopped : source.msg.isStopped = true) (aside : Aside (source.pc (.thread me))) :
    Aside (target.pc (.thread me)) := by
  cases moves with
  | hangUp gone =>
      rw [show target = source from took]
      exact aside
  | receive data queue =>
      obtain ⟨act, chosen, rfl⟩ := State.step_eq_some_iff.mp took
      obtain ⟨_, rfl⟩ := next_invoke chosen
      rw [State.perform_pc_self]
      exact .inr (.inl ⟨_, rfl⟩)
  | run _ spurious running =>
      obtain ⟨act, chosen, rfl⟩ := State.step_eq_some_iff.mp took
      rw [State.perform_pc_self]
      rcases aside with idle | ⟨writer, entry⟩ | done
      · exact absurd idle (not_idle_of_run chosen)
      · rw [entry] at chosen
        cases spurious with
        | true => cases chosen
        | false =>
            cases chosen
            rw [stopped]
            exact .inr (.inr rfl)
      · exact absurd done (running .none)
  | written _ number done | refused _ outcome done failed =>
      obtain ⟨act, chosen, rfl⟩ := State.step_eq_some_iff.mp took
      rw [done] at chosen
      cases chosen
      rw [State.perform_pc_self]
      exact .inl rfl

/-- What a step is to the threads: a payload handed in, the step of one of them, or the
step of a party that is none of them, perhaps of a `stop` that has returned. -/
inductive Goes (source target : Whole ρ τ σ) : Prop
  | write (payload : List UInt8) (fresh : τ) (core : target.core = source.core)
      (writes : source.own.Writes payload fresh target.own)
  | thread (thread : τ) (choice : ThreadChoice) {taken : Option RsIpc.Choice} {next : Thread}
      (moves : ThreadMoves (source.own.sender != some thread) (source.core.pc (.thread thread))
        (source.own.threads thread) choice taken next)
      (took : (memory ρ τ σ).Took source.core
        (taken.map fun taken => (.thread thread, taken)) target.core)
      (threads : target.own.threads = Function.update source.own.threads thread next)
      (sender : target.own.sender = source.own.sender)
      (accepted : target.own.accepted = source.own.accepted)
  | other (party : Party ρ τ σ) (apart : ∀ thread, party ≠ .thread thread)
      {taken : Option RsIpc.Choice}
      (took : (memory ρ τ σ).Took source.core
        (taken.map fun taken => (party, taken)) target.core)
      (threads : target.own.threads = source.own.threads)
      (sender : target.own.sender = source.own.sender ∨ target.own.sender = none ∧
        ∃ stopper outcome, source.core.pc (.stopper stopper) = .done outcome)
      (accepted : target.own.accepted = source.own.accepted)

theorem goes_of_step {source target : Whole ρ τ σ} {choice : Choice ρ τ σ}
    (step : (system ρ τ closes).step source choice = some target) : Goes source target := by
  cases moves_of_step step with
  | write payload fresh short writes => exact .write payload fresh rfl writes
  | thread thread choice moves took => exact .thread thread choice moves took rfl rfl rfl
  | reader reader choice moves took => exact .other (.reader reader) nofun took rfl (.inl rfl) rfl
  | stop stopper taken =>
      have took : (memory ρ τ σ).Took source.core
        ((some (.invoke .stop)).map fun taken => (.stopper stopper, taken)) _ := taken
      exact .other (.stopper stopper) nofun took rfl (.inl rfl) rfl
  | stopping stopper spurious running taken =>
      have took : (memory ρ τ σ).Took source.core
        ((some (if spurious then .spurious else .go)).map
          fun taken => (.stopper stopper, taken)) _ := taken
      exact .other (.stopper stopper) nofun took rfl (.inl rfl) rfl
  | stopped stopper outcome done taken =>
      have took : (memory ρ τ σ).Took source.core
        ((some .go).map fun taken => (.stopper stopper, taken)) _ := taken
      refine .other (.stopper stopper) nofun took ?_ ?_ ?_
      · split <;> rfl
      · split
        · exact .inr ⟨rfl, stopper, outcome, done⟩
        · exact .inl rfl
      · split <;> rfl

/-! ## A thread that writes -/

omit [DecidableEq ρ] [DecidableEq τ] [DecidableEq σ] in
/-- The buffer holds what a thread has copied of its data, and a call that gives up has
found the memory stopped. -/
structure Thread.Steady (thread : Thread) (msg : SharedMessage) (pc : Pc) : Prop where
  carries : ∀ data, thread.stage = .writing data → pc.Carries msg.data data
  refused : ∀ data, thread.stage = .writing data → pc.GivesUp → msg.isStopped = true

theorem Thread.steady_of_not_writing {thread : Thread}
    (stage : ∀ data, thread.stage ≠ .writing data) (msg : SharedMessage) (pc : Pc) :
    thread.Steady msg pc :=
  ⟨fun data writing => absurd writing (stage data), fun data writing => absurd writing (stage data)⟩

/-- The steps of other parties keep it. -/
theorem Thread.Steady.frame {thread : Thread} {source target : State (Party ρ τ σ)} {me : τ}
    (steady : thread.Steady source.msg (source.pc (.thread me)))
    (reachable : (memory ρ τ σ).Reachable source) {party : Party ρ τ σ}
    {taken : Option RsIpc.Choice}
    (took : (memory ρ τ σ).Took source (taken.map fun taken => (party, taken)) target)
    (ne : .thread me ≠ party) : thread.Steady target.msg (target.pc (.thread me)) := by
  constructor
  · intro data writing
    have carries := steady.carries data writing
    rw [view_of_took (·.Carries target.msg.data data)
      (fun site ticket => WaitSite.carries_resume _ _ site ticket) took ne]
    cases taken with
    | none =>
        rw [show target = source from took]
        exact carries
    | some call =>
        by_cases phase : (source.pc (.thread me)).phase = .writing
        · have apart : (source.pc party).phase ≠ .writing := by
            intro writes
            exact ne ((owned_of_reachable reachable).unique (.inr (.inr phase))
              (.inr (.inr writes)))
          rw [(same_of_not_writing took apart).2.1]
          exact carries
        · exact Pc.carries_of_not_writing phase _ _
  · intro data writing
    rw [view_of_took Pc.GivesUp WaitSite.givesUp_resume took ne]
    exact fun givesUp => isStopped_of_took took (steady.refused data writing givesUp)

/-- Whatever the thread does next keeps it. -/
theorem ThreadMoves.steady {closed : Bool} {source target : State (Party ρ τ σ)} {me : τ}
    {thread next : Thread} {choice : ThreadChoice} {taken : Option RsIpc.Choice}
    (moves : ThreadMoves closed (source.pc (.thread me)) thread choice taken next)
    (took : (memory ρ τ σ).Took source (taken.map fun taken => (.thread me, taken)) target)
    (fits : thread.stage.Fits source.msg.capacity (source.pc (.thread me)))
    (steady : thread.Steady source.msg (source.pc (.thread me))) :
    next.Steady target.msg (target.pc (.thread me)) := by
  cases moves with
  | receive data queue =>
      obtain ⟨act, chosen, rfl⟩ := State.step_eq_some_iff.mp took
      obtain ⟨_, rfl⟩ := next_invoke chosen
      rw [State.perform_pc_self]
      refine ⟨fun _ _ => Pc.carries_of_not_writing ?_ _ _, fun _ _ givesUp => by cases givesUp⟩
      nofun
  | run _ spurious running =>
      obtain ⟨act, chosen, rfl⟩ := State.step_eq_some_iff.mp took
      rw [State.perform_pc_self]
      constructor
      · intro data writing
        rw [writing] at fits
        exact (next_takes chosen).carries fits.2 (steady.carries data writing)
      · intro data writing givesUp
        rw [writing] at fits
        refine isStopped_of_took took ?_
        rcases (next_takes chosen).givesUp fits.1 fits.2 givesUp with before | stopped
        · exact steady.refused data writing before
        · exact stopped
  | _ => exact Thread.steady_of_not_writing (fun _ is => by cases is) _ _

omit [DecidableEq ρ] in
/-- `write_async` puts no thread into a call. -/
theorem Instance.Writes.stage {own next : Instance ρ τ} {payload : List UInt8} {fresh : τ}
    (writes : own.Writes payload fresh next) (thread : τ) :
    (next.threads thread).stage = (own.threads thread).stage ∨
      (own.threads thread).stage = .absent ∧ (next.threads thread).stage = .receiving := by
  cases writes with
  | fails sender is ended => exact .inl rfl
  | sends sender is alive =>
      left
      by_cases here : thread = sender
      · simp [Instance.send, here]
      · simp [Instance.send, here]
  | creates is absent =>
      by_cases here : thread = fresh
      · right
        rw [here]
        exact ⟨absent, by simp [Instance.send, Instance.create]⟩
      · left
        simp [Instance.send, Instance.create, here]

theorem steady_of_reachable {ok : StepCondition (Whole ρ τ σ) (Choice ρ τ σ)} {state : Whole ρ τ σ}
    (reachable : (system ρ τ closes).ReachableVia ok state) (me : τ) :
    (state.own.threads me).Steady state.core.msg (state.core.pc (.thread me)) := by
  refine reachable.invariant (fun state => ∀ me,
    (state.own.threads me).Steady state.core.msg (state.core.pc (.thread me))) ?_ ?_ me
  · rintro ⟨core, own⟩ ⟨_, rfl⟩ me
    exact Thread.steady_of_not_writing (fun _ is => by cases is) _ _
  · rintro source choice target before steady step _ me
    have core := System.reachable_core before
    cases goes_of_step step with
    | write payload fresh same writes =>
        rw [same]
        rcases writes.stage me with stage | ⟨_, receiving⟩
        · exact ⟨fun data writing => (steady me).carries data (stage ▸ writing),
            fun data writing => (steady me).refused data (stage ▸ writing)⟩
        · exact Thread.steady_of_not_writing (by rw [receiving]; nofun) _ _
    | thread thread choice moves took threads sender accepted =>
        by_cases here : me = thread
        · subst here
          rw [threads, Function.update_self]
          exact moves.steady took ((placed_of_reachable before).fits (.thread me)) (steady me)
        · rw [threads, Function.update_of_ne here]
          exact (steady me).frame core took fun same => here (Party.thread.inj same)
    | other party apart took threads sender accepted =>
        rw [threads]
        exact (steady me).frame core took fun same => apart me same.symm

/-! ## A stop that has returned -/

/-- Past its first step, `stop` has stopped the memory. -/
theorem stopped_of_reachable {ok : StepCondition (Whole ρ τ σ) (Choice ρ τ σ)} {state : Whole ρ τ σ}
    (reachable : (system ρ τ closes).ReachableVia ok state) (stopper : σ) :
    (state.core.pc (.stopper stopper) = .idle ∨ state.core.pc (.stopper stopper) = .setStopped) ∨
      state.core.msg.isStopped = true := by
  refine reachable.invariant (fun state => ∀ stopper, (state.core.pc (.stopper stopper) = .idle ∨
    state.core.pc (.stopper stopper) = .setStopped) ∨ state.core.msg.isStopped = true) ?_ ?_ stopper
  · rintro ⟨core, own⟩ ⟨⟨capacity, rfl⟩, _⟩ stopper
    exact .inl (.inl rfl)
  · rintro source choice target before stopped step _ stopper
    obtain ⟨taken, _, took⟩ := System.joint_took step
    cases taken with
    | none =>
        rw [show target.core = source.core from took]
        exact stopped stopper
    | some label =>
        obtain ⟨party, call⟩ := label
        rcases stopped stopper with waits | already
        · by_cases here : .stopper stopper = party
          · subst here
            have fits := ((placed_of_reachable before).step step).fits (.stopper stopper)
            obtain ⟨act, chosen, same⟩ := State.step_eq_some_iff.mp took
            rcases waits with idle | waits
            · left
              rw [same, State.perform_pc_self] at fits ⊢
              rw [idle] at chosen
              cases call with
              | invoke operation =>
                  cases chosen
                  rcases fits with is | within
                  · exact .inl is
                  · cases operation with
                    | stop => exact .inr rfl
                    | _ => cases within
              | _ => cases chosen
            · right
              rw [waits] at chosen
              cases call with
              | go =>
                  cases chosen
                  rw [same, State.perform_msg, SharedMessage.isStopped,
                    Effect.getSequenceState_apply]
              | _ => cases chosen
          · left
            rwa [State.view_of_step (fun pc => pc = .idle ∨ pc = .setStopped)
              (fun site _ => by cases site <;> simp [WaitSite.resume]) took here]
        · exact .inr (isStopped_of_step took already)

/-! ## Publishing -/

/-- The step of a thread publishes its data, or it moves nothing between the lists. -/
theorem ThreadMoves.published {closed : Bool} {source target : State (Party ρ τ σ)} {me : τ}
    {thread next : Thread} {choice : ThreadChoice} {taken : Option RsIpc.Choice}
    (moves : ThreadMoves closed (source.pc (.thread me)) thread choice taken next)
    (took : (memory ρ τ σ).Took source (taken.map fun taken => (.thread me, taken)) target)
    (fits : thread.stage.Fits source.msg.capacity (source.pc (.thread me)))
    (steady : thread.Steady source.msg (source.pc (.thread me))) :
    next.stage = .ended ∧ payloads target = payloads source ∨
      thread.stage ≠ .ended ∧ payloads target ++ next.pending (target.pc (.thread me)) =
        payloads source ++ thread.pending (source.pc (.thread me)) := by
  cases moves with
  | receive data queue =>
      obtain ⟨act, chosen, rfl⟩ := State.step_eq_some_iff.mp took
      obtain ⟨idle, rfl⟩ := next_invoke chosen
      right
      refine ⟨nofun, ?_⟩
      rw [payloads_of_took took (by rw [idle]; nofun), State.perform_pc_self]
      rfl
  | hangUp gone =>
      rw [show target = source from took]
      exact .inl ⟨rfl, rfl⟩
  | run _ spurious running =>
      obtain ⟨act, chosen, rfl⟩ := State.step_eq_some_iff.mp took
      have notIdle := not_idle_of_run chosen
      cases stage : thread.stage with
      | absent | receiving | ended =>
          rw [stage] at fits
          exact absurd fits notIdle
      | writing data =>
          right
          refine ⟨nofun, ?_⟩
          rcases publishStep_or_same took with ⟨size, publish⟩ | ⟨same, _⟩
          · -- The exchange publishes what has been copied, which is all of the data.
            have copied : source.msg.data.take size = data := by
              refine (steady.carries data stage).whole size ?_
              rw [publish.at_]
              rfl
            have before : thread.pending (source.pc (.thread me)) = data :: thread.queue := by
              unfold Thread.pending
              rw [stage, publish.at_]
              rfl
            have after : thread.pending ((source.perform (.thread me) act).pc (.thread me)) =
                thread.queue := by
              unfold Thread.pending
              rw [stage, publish.target_eq, State.perform_pc_self]
              rfl
            rw [before, after]
            unfold payloads
            rw [publish.published, List.map_append, List.append_assoc]
            change _ ++ (source.msg.data.take size :: thread.queue) = _
            rw [copied]
          · have kept : act.pc.returning = (source.pc (.thread me)).returning := by
              rcases (next_takes chosen).returning_kept running with ⟨size, _, event, _⟩ | ⟨_, kept⟩
              · rw [State.perform_log, event, History.published_append] at same
                cases List.append_cancel_left (same.trans (List.append_nil _).symm)
              · exact kept
            unfold payloads Thread.pending
            rw [stage, same, State.perform_pc_self, kept]
  | written _ number done =>
      obtain ⟨act, chosen, rfl⟩ := State.step_eq_some_iff.mp took
      right
      rw [payloads_of_took took (by rw [done]; nofun)]
      cases stage : thread.stage with
      | absent | receiving | ended =>
          rw [stage, done] at fits
          cases fits
      | writing data =>
          unfold Thread.pending
          rw [stage, done]
          exact ⟨nofun, rfl⟩
  | refused _ outcome done failed =>
      left
      exact ⟨rfl, payloads_of_took took (by rw [done]; nofun)⟩

omit [DecidableEq ρ] [DecidableEq τ] [DecidableEq σ] in
/-- A thread ends because its sender is gone, or because the memory is stopped. -/
theorem ThreadMoves.ended {closed : Bool} {msg : SharedMessage} {pc : Pc} {thread next : Thread}
    {choice : ThreadChoice} {taken : Option RsIpc.Choice}
    (moves : ThreadMoves closed pc thread choice taken next)
    (fits : thread.stage.Fits msg.capacity pc) (steady : thread.Steady msg pc)
    (ended : next.stage = .ended) :
    closed = true ∨ thread.stage = .ended ∨ msg.isStopped = true := by
  cases moves with
  | receive data queue => cases ended
  | hangUp gone => exact .inl gone
  | run _ spurious running => exact .inr (.inl ended)
  | written _ number done => cases ended
  | refused _ outcome done failed =>
      cases stage : thread.stage with
      | writing data =>
          refine .inr (.inr (steady.refused data stage ?_))
          rw [done]
          exact failed
      | absent | receiving | ended =>
          rw [stage, done] at fits
          cases fits

/-! ## The first thread and the late ones -/

/-- The first thread publishes what was accepted, in order.  Threads that come after it
stay aside. -/
structure Flow (state : Whole ρ τ σ) (lead : τ) : Prop where
  begun : (state.own.threads lead).stage ≠ .absent
  late : ∀ thread, thread ≠ lead → (state.own.threads thread).stage ≠ .absent →
    state.core.msg.isStopped = true ∧ Aside (state.core.pc (.thread thread))
  served : state.own.sender = some lead ∨ state.core.msg.isStopped = true
  ended : (state.own.threads lead).stage = .ended → state.core.msg.isStopped = true
  sent : payloads state.core <+: state.own.accepted
  queued : (state.own.threads lead).stage ≠ .ended → ∃ rest,
    state.own.accepted = payloads state.core ++
      (state.own.threads lead).pending (state.core.pc (.thread lead)) ++ rest ∧
      (state.own.sender = some lead → rest = [])

omit [DecidableEq ρ] [DecidableEq τ] in
theorem Thread.pending_enqueue (thread : Thread) (payload : List UInt8) (pc : Pc) :
    { thread with queue := thread.queue ++ [payload] }.pending pc =
      thread.pending pc ++ [payload] := by
  unfold pending
  cases thread.stage with
  | writing data =>
      dsimp only
      split <;> rfl
  | _ => rfl

omit [DecidableEq ρ] in
@[simp]
theorem Instance.send_stage (own : Instance ρ τ) (thread other : τ) (payload : List UInt8) :
    ((own.send thread payload).threads other).stage = (own.threads other).stage := by
  by_cases here : other = thread
  · simp [send, here]
  · simp [send, here]

omit [DecidableEq ρ] [DecidableEq σ] in
/-- A payload handed in goes to the end. -/
theorem Flow.send {core : State (Party ρ τ σ)} {own : Instance ρ τ} {lead : τ}
    (flow : Flow ⟨core, own⟩ lead) {thread : τ} (payload : List UInt8)
    (is : own.sender = some thread) : Flow ⟨core, own.send thread payload⟩ lead where
  begun := by
    rw [Instance.send_stage]
    exact flow.begun
  late other apart begun := by
    rw [Instance.send_stage] at begun
    exact flow.late other apart begun
  served := flow.served
  ended stage := by
    rw [Instance.send_stage] at stage
    exact flow.ended stage
  sent := flow.sent.trans (List.prefix_append _ _)
  queued stage := by
    rw [Instance.send_stage] at stage
    obtain ⟨rest, accepted, served⟩ := flow.queued stage
    change own.accepted = _ at accepted
    change ∃ rest, own.accepted ++ [payload] = _ ++ ((own.send thread payload).threads lead).pending
      (core.pc (.thread lead)) ++ rest ∧ _
    by_cases here : lead = thread
    · refine ⟨[], ?_, fun _ => rfl⟩
      have more : (own.send thread payload).threads lead =
          { own.threads lead with queue := (own.threads lead).queue ++ [payload] } := by
        simp [Instance.send, here]
      rw [more, Thread.pending_enqueue, accepted, served (here ▸ is)]
      simp
    · refine ⟨rest ++ [payload], ?_, fun lead' => ?_⟩
      · have same : (own.send thread payload).threads lead = own.threads lead := by
          simp [Instance.send, here]
        rw [same, accepted, List.append_assoc]
      · exact absurd (Option.some.inj (lead'.symm.trans is)) here

omit [DecidableEq ρ] [DecidableEq σ] in
/-- A queue that is made after a `stop` has a late thread. -/
theorem Flow.create {core : State (Party ρ τ σ)} {own : Instance ρ τ} {lead fresh : τ}
    (flow : Flow ⟨core, own⟩ lead) (is : own.sender = none)
    (absent : (own.threads fresh).stage = .absent) (idle : core.pc (.thread fresh) = .idle) :
    Flow ⟨core, own.create fresh⟩ lead := by
  have stopped : core.msg.isStopped = true :=
    flow.served.resolve_left fun lead => by cases is.symm.trans lead
  have apart : lead ≠ fresh := by
    rintro rfl
    exact flow.begun absent
  have same : (own.create fresh).threads lead = own.threads lead := by
    simp [Instance.create, apart]
  constructor
  · rw [same]
    exact flow.begun
  · intro thread other begun
    refine ⟨stopped, ?_⟩
    by_cases here : thread = fresh
    · rw [here]
      exact .inl idle
    · have kept : (own.create fresh).threads thread = own.threads thread := by
        simp [Instance.create, here]
      rw [kept] at begun
      exact (flow.late thread other begun).2
  · exact .inr stopped
  · exact fun _ => stopped
  · exact flow.sent
  · rw [same]
    intro stage
    obtain ⟨rest, accepted, _⟩ := flow.queued stage
    exact ⟨rest, accepted, fun lead' => absurd (Option.some.inj lead').symm apart⟩

/-- What the steps of late threads and of other parties keep. -/
theorem Flow.frame {source target : Whole ρ τ σ} {lead : τ} (flow : Flow source lead)
    {party : Party ρ τ σ} {taken : Option RsIpc.Choice}
    (took : (memory ρ τ σ).Took source.core (taken.map fun taken => (party, taken)) target.core)
    (apart : .thread lead ≠ party) (silent : (source.core.pc party).phase ≠ .writing)
    (late : ∀ thread, thread ≠ lead → (target.own.threads thread).stage ≠ .absent →
      target.core.msg.isStopped = true ∧ Aside (target.core.pc (.thread thread)))
    (threads : target.own.threads lead = source.own.threads lead)
    (sender : target.own.sender = source.own.sender ∨
      target.own.sender = none ∧ source.core.msg.isStopped = true)
    (accepted : target.own.accepted = source.own.accepted) : Flow target lead where
  begun := by
    rw [threads]
    exact flow.begun
  late := late
  served := by
    rcases sender with same | ⟨_, stopped⟩
    · rw [same]
      exact flow.served.imp_right (isStopped_of_took took)
    · exact .inr (isStopped_of_took took stopped)
  ended stage := by
    rw [threads] at stage
    exact isStopped_of_took took (flow.ended stage)
  sent := by
    rw [payloads_of_took took silent, accepted]
    exact flow.sent
  queued stage := by
    rw [threads] at stage ⊢
    obtain ⟨rest, split, served⟩ := flow.queued stage
    refine ⟨rest, ?_, fun lead' => ?_⟩
    · rw [payloads_of_took took silent, accepted, split,
        view_of_took _ (Thread.pending_resume _) took apart]
    · rcases sender with same | ⟨none, _⟩
      · exact served (same ▸ lead')
      · cases none.symm.trans lead'

/-- The step of the first thread. -/
theorem Flow.lead {source target : Whole ρ τ σ} {lead : τ} (flow : Flow source lead)
    {choice : ThreadChoice} {taken : Option RsIpc.Choice} {next : Thread}
    (moves : ThreadMoves (source.own.sender != some lead) (source.core.pc (.thread lead))
      (source.own.threads lead) choice taken next)
    (took : (memory ρ τ σ).Took source.core (taken.map fun taken => (.thread lead, taken))
      target.core)
    (fits : (source.own.threads lead).stage.Fits source.core.msg.capacity
      (source.core.pc (.thread lead)))
    (steady : (source.own.threads lead).Steady source.core.msg (source.core.pc (.thread lead)))
    (threads : target.own.threads = Function.update source.own.threads lead next)
    (sender : target.own.sender = source.own.sender)
    (accepted : target.own.accepted = source.own.accepted) : Flow target lead := by
  have now : target.own.threads lead = next := by rw [threads, Function.update_self]
  have published := moves.published took fits steady
  constructor
  · rw [now]
    exact moves.stays flow.begun
  · intro thread apart begun
    rw [threads, Function.update_of_ne apart] at begun
    obtain ⟨stopped, aside⟩ := flow.late thread apart begun
    refine ⟨isStopped_of_took took stopped, ?_⟩
    rwa [view_of_took Aside aside_resume took fun same => apart (Party.thread.inj same)]
  · rw [sender]
    exact flow.served.imp_right (isStopped_of_took took)
  · rw [now]
    intro stage
    refine isStopped_of_took took ?_
    rcases moves.ended fits steady stage with gone | before | stopped
    · exact flow.served.resolve_left (by simpa using gone)
    · exact flow.ended before
    · exact stopped
  · rw [accepted]
    rcases published with ⟨_, same⟩ | ⟨stage, moved⟩
    · rw [same]
      exact flow.sent
    · obtain ⟨rest, split, _⟩ := flow.queued stage
      rw [split, ← moved, List.append_assoc]
      exact List.prefix_append _ _
  · rw [now, accepted, sender]
    intro alive
    rcases published with ⟨stage, _⟩ | ⟨stage, moved⟩
    · exact absurd stage alive
    · obtain ⟨rest, split, served⟩ := flow.queued stage
      exact ⟨rest, by rw [split, ← moved], served⟩

/-- Nothing is written before the first thread is created. -/
structure Unwritten (state : Whole ρ τ σ) : Prop where
  absent : ∀ thread, (state.own.threads thread).stage = .absent
  sender : state.own.sender = none
  accepted : state.own.accepted = []
  payloads : payloads state.core = []

omit [DecidableEq ρ] [DecidableEq σ] in
/-- The first payload creates the first thread. -/
theorem Unwritten.create {core : State (Party ρ τ σ)} {own : Instance ρ τ}
    (unwritten : Unwritten ⟨core, own⟩) (fresh : τ) : Flow ⟨core, own.create fresh⟩ fresh where
  begun := by simp [Instance.create]
  late thread apart begun := by
    have same : (own.create fresh).threads thread = own.threads thread := by
      simp [Instance.create, apart]
    rw [same] at begun
    exact absurd (unwritten.absent thread) begun
  served := .inl rfl
  ended stage := by simp [Instance.create] at stage
  sent := by
    rw [unwritten.payloads]
    exact List.nil_prefix
  queued _ := by
    refine ⟨[], ?_, fun _ => rfl⟩
    rw [unwritten.payloads]
    change own.accepted = _
    rw [unwritten.accepted]
    simp [Instance.create, Thread.pending]

theorem flow_of_reachable {ok : StepCondition (Whole ρ τ σ) (Choice ρ τ σ)} {state : Whole ρ τ σ}
    (reachable : (system ρ τ closes).ReachableVia ok state) :
    Unwritten state ∨ ∃ lead, Flow state lead := by
  refine reachable.invariant (fun state => Unwritten state ∨ ∃ lead, Flow state lead) ?_ ?_
  · rintro ⟨core, own⟩ ⟨⟨capacity, rfl⟩, rfl⟩
    exact .inl ⟨fun _ => rfl, rfl, rfl, rfl⟩
  · rintro source choice target before flow step _
    have placed := placed_of_reachable before
    have silent : ∀ party : Party ρ τ σ, (∀ thread, party ≠ .thread thread) →
        (source.core.pc party).phase ≠ .writing := by
      intro party apart writing
      obtain ⟨thread, _, is, _⟩ := (placed.fits party).writing (.inr writing)
      exact apart thread is
    cases goes_of_step step with
    | write payload fresh same writes =>
        obtain ⟨core, own⟩ := target
        subst same
        cases writes with
        | fails thread is ended => exact flow
        | sends thread is alive =>
            rcases flow with unwritten | ⟨lead, flow⟩
            · cases unwritten.sender.symm.trans is
            · exact .inr ⟨lead, flow.send payload is⟩
        | creates is absent =>
            rcases flow with unwritten | ⟨lead, flow⟩
            · exact .inr ⟨fresh, (unwritten.create fresh).send payload rfl⟩
            · have idle : source.core.pc (.thread fresh) = .idle := by
                have fits := placed.fits (.thread fresh)
                simp only [Instance.Fits, absent] at fits
                exact fits
              exact .inr ⟨lead, (flow.create is absent idle).send payload rfl⟩
    | thread thread choice moves took threads sender accepted =>
        have there := moves.there took (placed.fits (.thread thread))
        rcases flow with unwritten | ⟨lead, flow⟩
        · exact absurd (unwritten.absent thread) there
        · by_cases here : thread = lead
          · subst here
            exact .inr ⟨thread, flow.lead moves took (placed.fits (.thread thread))
              (steady_of_reachable before thread) threads sender accepted⟩
          · obtain ⟨stopped, aside⟩ := flow.late thread here there
            refine .inr ⟨lead, flow.frame took (fun same => here (Party.thread.inj same).symm)
              (by rw [aside.phase]; decide) ?_ ?_ (.inl sender) accepted⟩
            · intro other apart begun
              by_cases same : other = thread
              · rw [same]
                exact ⟨isStopped_of_took took stopped, moves.aside took stopped aside⟩
              · rw [threads, Function.update_of_ne same] at begun
                obtain ⟨_, aside⟩ := flow.late other apart begun
                refine ⟨isStopped_of_took took stopped, ?_⟩
                rwa [view_of_took Aside aside_resume took fun is => same (Party.thread.inj is)]
            · rw [threads, Function.update_of_ne (Ne.symm here)]
    | other party apart took threads sender accepted =>
        rcases flow with unwritten | ⟨lead, flow⟩
        · refine .inl ⟨?_, ?_, ?_, ?_⟩
          · rw [threads]
            exact unwritten.absent
          · rcases sender with same | ⟨none, _⟩
            · exact same.trans unwritten.sender
            · exact none
          · exact accepted.trans unwritten.accepted
          · exact (payloads_of_took took (silent party apart)).trans unwritten.payloads
        · refine .inr ⟨lead, flow.frame took (fun same => apart lead same.symm) (silent party apart)
            ?_ (by rw [threads]) ?_ accepted⟩
          · intro thread other begun
            rw [threads] at begun
            obtain ⟨stopped, aside⟩ := flow.late thread other begun
            refine ⟨isStopped_of_took took stopped, ?_⟩
            rwa [view_of_took Aside aside_resume took fun same => apart thread same.symm]
          · rcases sender with same | ⟨none, stopper, outcome, done⟩
            · exact .inl same
            · refine .inr ⟨none, (stopped_of_reachable before stopper).resolve_left ?_⟩
              rw [done]
              rintro (is | is) <;> cases is

omit [DecidableEq ρ] [DecidableEq τ] [DecidableEq σ] in
/-- What the thread of the current queue has still to publish. -/
def outstanding (state : Whole ρ τ σ) : List (List UInt8) :=
  match state.own.sender with
  | some thread => (state.own.threads thread).pending (state.core.pc (.thread thread))
  | none => []

/-- What is published was accepted, in that order and once.  Until the memory is
stopped, whatever was accepted and is not published is still outstanding. -/
theorem accepted_published_in_order {state : Whole ρ τ σ}
    (reachable : (system ρ τ closes).Reachable state) :
    payloads state.core <+: state.own.accepted ∧ (state.core.msg.isStopped = false →
      state.own.accepted = payloads state.core ++ outstanding state) := by
  rcases flow_of_reachable reachable with unwritten | ⟨lead, flow⟩
  · rw [unwritten.payloads, unwritten.accepted, outstanding, unwritten.sender]
    exact ⟨List.nil_prefix, fun _ => rfl⟩
  · refine ⟨flow.sent, fun running => ?_⟩
    have notStopped : state.core.msg.isStopped ≠ true := by
      rw [running]
      exact Bool.false_ne_true
    have sender := flow.served.resolve_right notStopped
    obtain ⟨rest, split, served⟩ := flow.queued fun ended => notStopped (flow.ended ended)
    rw [outstanding, sender, split, served sender, List.append_nil]

end Steps

/-! ## Two payloads and a stop -/

/-- The thread takes a payload and takes the given number of steps in its call. -/
def writingOne (count : Nat) : List (Choice (Fin 1) (Fin 2) (Fin 1)) :=
  .thread 0 .receive :: List.replicate count (.thread 0 (.run false))

/-- Nothing has happened, over memory of one byte. -/
def unwritten : Whole (Fin 1) (Fin 2) (Fin 1) :=
  ⟨State.fresh (Party (Fin 1) (Fin 2) (Fin 1)) 1 65535 0, Instance.start (Fin 1) (Fin 2)⟩

theorem initial_unwritten (closes : Fin 1 → Bool) :
    (system (Fin 1) (Fin 2) closes).initial unwritten :=
  ⟨initial_fresh _ 1 65535 0, rfl⟩

/-- The thread has published the first payload and not the second one. -/
def halfWritten : Whole (Fin 1) (Fin 2) (Fin 1) :=
  (system (Fin 1) (Fin 2) fun _ => true).finish unwritten
    (.write [7] 0 :: .write [8] 0 :: writingOne 13) (by decide +kernel)

theorem halfWritten_in_order :
    halfWritten.own.accepted = payloads halfWritten.core ++ [[8]] ∧
      payloads halfWritten.core = [[7]] := by
  have facts : halfWritten.core.msg.isStopped = false ∧ outstanding halfWritten = [[8]] ∧
      payloads halfWritten.core = [[7]] := by decide +kernel
  obtain ⟨running, rest, published⟩ := facts
  have reachable : (system (Fin 1) (Fin 2) fun _ => true).Reachable halfWritten :=
    System.reachable_finish (initial_unwritten _) _
  obtain ⟨_, all⟩ := accepted_published_in_order reachable
  exact ⟨rest ▸ all running, published⟩

end WriteAsync

end RsIpc
