import RsIpc.Python.Rest
import RsIpc.SharedMessage.Wakeful

/-!
# The stream makes progress

The backpressure loop is the one place where a notification can be missed, and only in
its first round.  Where that does not happen, a stream whose readers are all in a call
of `read` does not come to rest before everything is delivered.
-/

namespace RsIpc.WriteAsync

open Protocol Protocol.Handshake Transition

universe u

variable {ρ τ σ : Type u} [DecidableEq ρ] [DecidableEq τ] [DecidableEq σ] {closes : σ → Bool}

/-! ## Who is registered -/

omit [DecidableEq ρ] [DecidableEq τ] [DecidableEq σ] in
/-- Only a reader that is being constructed registers. -/
theorem registering_of_joined {own : Instance ρ τ} {msg : SharedMessage} {pc : Pc} {act : Act}
    {party : Party ρ τ σ} (fits : own.Fits msg.capacity pc party) (takes : Takes msg pc act)
    (joined : act.event = some .joined) :
    ∃ reader, party = .reader reader ∧ (own.readers reader).stage = .registering := by
  have joins : ∀ operation : Operation, pc.Within msg.capacity operation → operation = .addReader :=
    fun _ within => takes.addReader_of_joined within joined
  have idle : pc ≠ .idle := by
    rintro rfl
    cases takes with
    | invoke operation => cases joined
    | panic site at_ membership => rcases at_ with is | ⟨packed, is⟩ <;> cases is
    | unchanged size at_ same => rcases at_ with is | ⟨packed, is⟩ <;> cases is
    | unchangedTarget count at_ same => rcases at_ with is | ⟨packed, is⟩ <;> cases is
    | compute site at_ => rcases at_ with is | ⟨packed, is⟩ <;> cases is
  cases party with
  | reader reader =>
      change (own.readers reader).stage.Fits msg.capacity pc at fits
      cases stage : (own.readers reader).stage with
      | registering => exact ⟨reader, rfl, stage⟩
      | absent =>
          rw [stage] at fits
          exact absurd fits idle
      | ready =>
          rw [stage] at fits
          rcases fits with is | ⟨lastSeenSeq, block, within⟩
          · exact absurd is idle
          · cases joins _ within
      | stored | copied =>
          rw [stage] at fits
          obtain ⟨number, rfl⟩ := fits
          cases joins (.read 0 true) trivial
  | thread thread =>
      change (own.threads thread).stage.Fits msg.capacity pc at fits
      cases stage : (own.threads thread).stage with
      | writing data =>
          rw [stage] at fits
          cases joins _ fits.2
      | absent | receiving | ended =>
          rw [stage] at fits
          exact absurd fits idle
  | stopper stopper =>
      rcases fits with is | within
      · exact absurd is idle
      · cases joins _ within

theorem reader_of_enrolled {ok : StepCondition (Whole ρ τ σ) (Choice ρ τ σ)} {state : Whole ρ τ σ}
    (reachable : (system ρ τ closes).ReachableVia ok state) {party : Party ρ τ σ}
    (enrolled : History.enrolled (fun _ => false) state.core.log party = true) :
    ∃ reader, party = .reader reader := by
  refine reachable.invariant (fun state => ∀ party,
    History.enrolled (fun _ => false) state.core.log party = true → ∃ reader, party = .reader reader)
    ?_ ?_ party enrolled
  · rintro ⟨core, own⟩ ⟨⟨capacity, rfl⟩, _⟩ party enrolled
    cases enrolled
  · rintro source choice target before known step _ party enrolled
    obtain ⟨taken, _, took⟩ := System.joint_took step
    cases taken with
    | none =>
        rw [show target.core = source.core from took] at enrolled
        exact known party enrolled
    | some label =>
        obtain ⟨act, chosen, same⟩ := State.step_eq_some_iff.mp took
        rw [same] at enrolled
        by_cases here : party = label.1
        · subst here
          by_cases joined : act.event = some .joined
          · obtain ⟨reader, is, _⟩ := registering_of_joined
              ((placed_of_reachable before).fits label.1) (next_takes chosen) joined
            exact ⟨reader, is⟩
          · have streams := ((placed_of_reachable before).fits label.1).streams
            rw [History.enrolled_perform_quiet (fun _ => false) source.core label.1 joined
              ((next_takes chosen).not_left_of_streams streams)] at enrolled
            exact known _ enrolled
        · rw [History.enrolled_perform_of_ne (fun _ => false) source.core here] at enrolled
          exact known party enrolled

/-- Once a thread is there, nobody registers any more. -/
theorem sameConsumers_of_begun {source : Whole ρ τ σ} {target : State (Party ρ τ σ)}
    (reachable : (system ρ τ closes).ReachableVia AllRegistered source) {thread : τ}
    (begun : (source.own.threads thread).stage ≠ .absent) {label : Party ρ τ σ × RsIpc.Choice}
    (step : source.core.step label = some target) : SameConsumers source.core label target := by
  obtain ⟨act, chosen, rfl⟩ := State.step_eq_some_iff.mp step
  have fits := (placed_of_reachable reachable).fits label.1
  rcases (next_takes chosen).membership with ⟨words, _⟩ | ⟨_, joined, _⟩ | ⟨_, left, _⟩
  · exact words
  · obtain ⟨reader, _, registering⟩ := registering_of_joined fits (next_takes chosen) joined
    exact absurd registering (registered_of_begun reachable begun reader).2
  · exact absurd left ((next_takes chosen).not_left_of_streams fits.streams)

section Fintype

variable [Fintype ρ] [Fintype τ] [Fintype σ] {state : Whole ρ τ σ}

/-! ## Who has consumed the message -/

/-- A reader that was given the last message still has its guard, or has released it. -/
theorem consumed_of_current (reachable : (system ρ τ closes).ReachableVia AllRegistered state)
    {reader : ρ}
    (current : History.lastAdmitted (· = .reader reader) state.core.log =
      state.core.msg.currentSequence) (published : 0 < state.core.publishes) :
    (∃ sequence, (state.core.pc (.reader reader)).guard = some sequence) ∨
      .reader reader ∈ (History.consumed state.core.log).map Prod.fst := by
  refine reachable.invariant (fun state => ∀ reader : ρ,
    History.lastAdmitted (· = .reader reader) state.core.log = state.core.msg.currentSequence →
      0 < state.core.publishes →
        (∃ sequence, (state.core.pc (.reader reader)).guard = some sequence) ∨
          .reader reader ∈ (History.consumed state.core.log).map Prod.fst)
    ?_ ?_ reader current published
  · rintro ⟨core, own⟩ ⟨⟨capacity, rfl⟩, _⟩ reader _ published
    cases published
  · rintro source choice target before known step registered reader current published
    have after := before.step step registered
    obtain ⟨taken, _, took⟩ := System.joint_took step
    cases taken with
    | none =>
        rw [show target.core = source.core from took] at current published ⊢
        exact known reader current published
    | some label =>
        rcases publishStep_or_same took with ⟨size, publish⟩ | ⟨same, number⟩
        · -- Nobody has been given the message that is published just now.
          have all := (abreast_of_reachable after reader).length_eq
            (System.reachable_core after) current
          have lower := (abreast_of_reachable before reader).lower
          have still : History.admitted (· = .reader reader) target.core.log =
              History.admitted (· = .reader reader) source.core.log := by
            rw [publish.target_eq, State.perform_log, History.admitted_append]
            exact List.append_nil _
          rw [still, publish.publishes] at all
          omega
        · have publishes : target.core.publishes = source.core.publishes := congrArg List.length same
          obtain ⟨act, chosen, is⟩ := State.step_eq_some_iff.mp took
          rw [is] at current number publishes published ⊢
          rw [publishes] at published
          rcases lastAdmitted_perform chosen (.reader reader) with
            ⟨lastSeenSeq, block, here, _, granted⟩ | last
          · left
            rw [here, State.perform_pc_self, granted]
            exact ⟨_, rfl⟩
          · rw [last, number] at current
            rcases known reader current published with ⟨sequence, guard⟩ | consumed
            · by_cases here : .reader reader = label.1
              · rw [here] at guard ⊢
                rcases (next_takes chosen).guard_or_released guard with kept | released
                · left
                  rw [State.perform_pc_self]
                  exact ⟨sequence, kept⟩
                · right
                  rw [History.consumed_perform, released]
                  simp
              · left
                rw [State.view_perform Pc.guard WaitSite.guard_resume, if_neg here]
                exact ⟨sequence, guard⟩
            · right
              rcases consumed_of_step chosen with
                ⟨message, event, _⟩ | ⟨sequence, _, _, _, more⟩ | ⟨_, kept⟩
              · rw [is, State.perform_log, event, History.published_append] at same
                exact absurd same (by simp [History.published])
              · rw [more, List.map_append, List.mem_append]
                exact .inl consumed
              · rwa [kept]

/-! ## The backpressure loop -/

omit [DecidableEq ρ] [DecidableEq τ] [DecidableEq σ] [Fintype ρ] [Fintype τ] [Fintype σ] in
/-- Only a thread that writes waits for readers. -/
theorem Placed.writes_of_awaiting (placed : Placed state) {party : Party ρ τ σ} {ticket : Nat}
    (awaiting : (state.core.pc party).awaiting = some ticket) :
    ∃ thread data, party = .thread thread ∧ (state.own.threads thread).stage = .writing data := by
  cases (placed.fits party).whereabouts with
  | idle is =>
      rw [is] at awaiting
      cases awaiting
  | calls operation streams writesNothing within =>
      exact absurd (Pc.writes_of_awaiting within awaiting) writesNothing
  | writes thread data is stage short within => exact ⟨thread, data, is, stage⟩

/-- Also the first look of the backpressure loop is still right when its ticket is read. -/
def Watchful (closes : σ → Bool) : StepCondition (Whole ρ τ σ) (Choice ρ τ σ) :=
  fun source choice target => Prompt closes source choice target ∧
    System.OnCore (client closes) FirstLookCurrent source choice target

instance (source : Whole ρ τ σ) (choice : Choice ρ τ σ) (target : Whole ρ τ σ) :
    Decidable (Watchful closes source choice target) :=
  inferInstanceAs (Decidable (_ ∧ _))

/-- A thread that waits has a reason, or somebody owes it a notification. -/
theorem justified_of_watchful (reachable : (system ρ τ closes).ReachableVia (Watchful closes) state)
    {party : Party ρ τ σ}
    (awaiting : (state.core.pc party).awaiting = some (state.core.msg.notified .readerDone)) :
    state.core.Justified party := by
  refine reachable.invariant (fun state => ∀ party,
    (state.core.pc party).awaiting = some (state.core.msg.notified .readerDone) →
      state.core.Justified party) ?_ ?_ party awaiting
  · rintro ⟨core, own⟩ ⟨⟨capacity, rfl⟩, _⟩ party awaiting
    cases awaiting
  · rintro source choice target before justified step watchful other awaiting
    have after := before.step step watchful
    obtain ⟨taken, moves, took⟩ := System.joint_took step
    cases taken with
    | none =>
        rw [show target.core = source.core from took] at awaiting ⊢
        exact justified other awaiting
    | some label =>
        obtain ⟨party, call⟩ := label
        have registered := before.mono fun watchful => watchful.1.1
        have core := System.reachable_core before
        have same := notified_same_of_step core took (Pc.ticket_of_awaiting awaiting)
        have attentive : ∀ {thread : τ}, (source.own.threads thread).stage ≠ .absent →
            Attentive source.core (party, call) target.core := by
          intro thread begun
          refine ⟨sameConsumers_of_begun registered begun took, ?_, ?_, ?_⟩
          · exact watchful.1.2 _ moves _ rfl
          · exact watchful.2 _ moves _ rfl
          · exact noOverflow_of_disciplined nobody_registered
              ((abiding_of_reachable before).mono fun abiding => abiding.1) _ _
        by_cases here : other = party
        · subst here
          obtain ⟨thread, data, is, _⟩ := (placed_of_reachable after).writes_of_awaiting awaiting
          have begun : (source.own.threads thread).stage ≠ .absent := by
            intro absent
            have idle : source.core.pc other = .idle := by
              have fits := (placed_of_reachable before).fits other
              rw [is] at fits ⊢
              simp only [Instance.Fits, absent] at fits
              exact fits
            obtain ⟨act, chosen, same⟩ := State.step_eq_some_iff.mp took
            rw [idle] at chosen
            obtain ⟨operation, _, rfl⟩ := next_idle chosen
            rw [same, State.perform_pc_self] at awaiting
            cases operation <;> cases awaiting
          refine justified_of_own_step took (attentive begun) same awaiting fun waiting => ?_
          exact justified other (same ▸ waiting)
        · have stays : target.core.pc other = source.core.pc other := by
            obtain ⟨act, chosen, same⟩ := State.step_eq_some_iff.mp took
            rw [same, State.perform_pc_of_ne source.core here] at awaiting ⊢
            exact Pc.after_self Pc.awaiting WaitSite.awaiting_resume awaiting
          rw [stays, same] at awaiting
          obtain ⟨thread, data, _, writing⟩ :=
            (placed_of_reachable before).writes_of_awaiting awaiting
          have begun : (source.own.threads thread).stage ≠ .absent := by
            rw [writing]
            intro is
            cases is
          exact justified_of_other_step core took (attentive begun) same here stays awaiting
            (justified other awaiting)

/-- All registered readers have released the last message. -/
theorem AtRest.consumed (rest : AtRest closes state)
    (reachable : (system ρ τ closes).ReachableVia (Prompt closes) state)
    (running : state.core.msg.isStopped = false)
    (reading : ∀ reader, state.core.pc (.reader reader) ≠ .idle)
    (published : 0 < state.core.publishes) :
    state.core.msg.getReaderState.consumers.toNat ≤
      state.core.msg.getReaderState.dataConsumed.toNat := by
  have abiding := abiding_of_reachable reachable
  have uncleared : ∀ party, (state.core.pc party).cleared = false := by
    intro party
    have rests := rest.rests party
    generalize state.core.pc party = pc at rests ⊢
    cases rests <;> rfl
  rw [(counted_of_abiding nobody_registered abiding).counted uncleared,
    consumers_eq_count nobody_registered (abiding.mono fun abiding => abiding.1),
    ← List.length_map Prod.fst]
  refine count_le_length fun party enrolled => ?_
  obtain ⟨reader, rfl⟩ := reader_of_enrolled reachable enrolled
  obtain ⟨lastSeenSeq, block, ticket, parked⟩ :=
    (rest.reader (placed_of_reachable reachable) reader).resolve_left (reading reader)
  have current := rest.current reachable running (reading reader)
  refine (consumed_of_current (reachable.mono fun prompt => prompt.1) current published).resolve_left ?_
  rintro ⟨sequence, guard⟩
  rw [parked] at guard
  cases guard

/-- In a watchful run nobody is left asleep in the backpressure loop. -/
theorem AtRest.not_pressed (rest : AtRest closes state)
    (reachable : (system ρ τ closes).ReachableVia (Watchful closes) state)
    (running : state.core.msg.isStopped = false)
    (reading : ∀ reader, state.core.pc (.reader reader) ≠ .idle) (party : Party ρ τ σ)
    (writer : Writer) (ticket : Nat) :
    state.core.pc party ≠ .parked (.backpressure writer) ticket := by
  intro parked
  have prompt := reachable.mono fun watchful => watchful.1
  have current :=
    (current_or_waking (timely_of_prompt prompt) parked).resolve_right (rest.not_waking _)
  have awaiting : (state.core.pc party).awaiting = some (state.core.msg.notified .readerDone) := by
    rw [parked]
    exact congrArg some current
  rcases justified_of_watchful reachable awaiting with ⟨unconsumed | active, _⟩ | owed
  · have published := published_of_pressed (System.reachable_core reachable)
      (by rw [parked]; rfl : (state.core.pc party).pressed = true)
    have consumed := rest.consumed prompt running reading published
    have behind := (ReadersStateCount.unconsumed_iff _).mp unconsumed
    omega
  · have counted := activeReaders_eq_registrations (System.reachable_core reachable)
    rw [rest.registrations (placed_of_reachable reachable)] at counted
    rw [counted] at active
    exact absurd active (by decide)
  · exact rest.not_owed _ owed

/-- A stream whose readers are all in a call of `read` does not come to rest before every
reader has received everything that was accepted, in order. -/
theorem all_delivered_at_rest (reachable : (system ρ τ closes).ReachableVia (Watchful closes) state)
    (rest : AtRest closes state) (running : state.core.msg.isStopped = false)
    (reading : ∀ reader, state.core.pc (.reader reader) ≠ .idle) (reader : ρ) :
    (state.own.readers reader).received = state.own.accepted := by
  have prompt := reachable.mono fun watchful => watchful.1
  have registered := reachable.mono fun watchful => watchful.1.1
  obtain ⟨received, accepted | ⟨thread, data, writer, ticket, writing, parked⟩⟩ :=
    delivered_at_rest prompt rest running
  · rw [received reader (reading reader), accepted]
  · exact absurd parked (rest.not_pressed reachable running reading (.thread thread) writer ticket)

/-! ## A stream that delivers everything -/

omit [Fintype τ] [Fintype σ] in
/-- A step of a spin phase looks at no readers word. -/
theorem watchful_spin {core : State (Party ρ τ σ)} {own : Instance ρ τ} {party : Party ρ τ σ}
    {choice : Choice ρ τ σ} {site : WaitSite} {ticket : Nat}
    (goes : ∀ {core : State (Party ρ τ σ)} {spins : Nat}, core.pc party = .wait site ticket spins →
      client closes core own choice = some (some (party, .go), own))
    (calls : ∀ payload fresh, choice ≠ .write payload fresh)
    (close : core.msg.notified site.condvar < ticket + 2 ^ 32) (spins : Nat) (next : Pc) :
    Watchful closes ⟨core.perform party (.goto (.wait site ticket spins)), own⟩ choice
      ⟨core.perform party (.goto next), own⟩ := by
  refine ⟨prompt_spin goes calls close spins next, ?_⟩
  intro move moves label taken readerState look
  rw [goes (State.perform_pc_self core party _)] at moves
  cases moves
  cases taken
  rw [State.perform_pc_self] at look
  cases look

end Fintype

/-- The reader receives the payload, and waits for the next. -/
def delivering : Whole (Fin 1) (Fin 2) (Fin 1) :=
  (system (Fin 1) (Fin 2) fun _ => true).finish unwritten
    (.reader 0 .new :: readerRuns 2 ++ .reader 0 .finish :: .write [7] 0 :: writingOne 15 ++
      .thread 0 .finish :: .reader 0 (.read true) :: readerRuns 5 ++
        [.reader 0 .store, .reader 0 .copy] ++ .reader 0 .drop :: readerRuns 4 ++
      .reader 0 .finish :: .reader 0 (.read true) :: readerRuns 2) (by decide +kernel)

/-- The reader sleeps. -/
def delivered : Whole (Fin 1) (Fin 2) (Fin 1) :=
  ⟨delivering.core.perform (.reader 0) (.goto (.parked (.reader 1 true) 1)), delivering.own⟩

theorem delivered_all :
    (delivered.own.readers 0).received = delivered.own.accepted ∧
      delivered.own.accepted = [[7]] := by
  have almost : (system (Fin 1) (Fin 2) fun _ => true).ReachableVia (Watchful fun _ => true)
      delivering :=
    System.reachableVia_finish (initial_unwritten _) _ (by decide +kernel)
  have reachable : (system (Fin 1) (Fin 2) fun _ => true).ReachableVia (Watchful fun _ => true)
      delivered := by
    have waits : delivering.core.pc (.reader 0) = .wait (.reader 1 true) 1 1000 := by decide +kernel
    exact parks_of_spin almost reader_goes waits (by decide +kernel)
      (watchful_spin reader_goes (fun _ _ is => by cases is) (by decide +kernel))
  have rest : AtRest (fun _ => true) delivered := atRest_of_insideChoices (by decide +kernel)
  exact ⟨all_delivered_at_rest reachable rest (by decide +kernel) (by decide +kernel) 0,
    by decide +kernel⟩

end RsIpc.WriteAsync
