import RsIpc.SharedMessage.Waiting

/-!
# Operations that end a wait

Each operation that ends a writer's reason to wait goes on to count up the
condition variable the writer sleeps on, except one: `remove_reader` changes the
number of registered readers and notifies nobody.
-/

namespace RsIpc

open Transition

universe u

variable {ι : Type u} [DecidableEq ι]

def UpdateSite.ending : UpdateSite → Bool
  | .release _ | .unregister _ _ | .addReader | .removeReader => true
  | .register _ _ _ | .resetConsumed _ | .setTarget _ => false

/-- The party is at the update of an operation that may end a writer's wait: the
drop of a read guard, the retry branch of `read`, `add_reader`, `remove_reader`
or `stop`. -/
def Pc.ending : Pc → Bool
  | .setStopped => true
  | .update site | .cas site _ => site.ending
  | _ => false

/-- The operation is over, or its loop starts again. -/
def Pc.completed : Pc → Bool
  | .done _ | .readTicket _ _ => true
  | _ => false

theorem Pc.owes_of_completed {pc : Pc} (completed : pc.completed = true) (which : Condvar) :
    pc.owes which = false := by
  cases pc with
  | done outcome | readTicket lastSeenSeq block => rfl
  | _ => cases completed

/-- However the run goes on, the operation counts up the condition variable of
the writers before it completes. -/
def Wakes (party : ι) (state : State ι) : Prop :=
  ∀ labels final, (zeroed ι).exec state labels = some final →
    (final.pc party).completed = true → Notifies party .readerDone state labels

/-- The exchange takes away the one registered reader that a writer awaits. -/
def Strands (source : State ι) (label : ι × Choice) : Prop :=
  source.pc label.1 = .cas .removeReader source.msg.readersState ∧ label.2 = .go ∧
    source.msg.isStopped = false ∧ source.msg.getReaderState.OneAwaited

instance (source : State ι) (label : ι × Choice) : Decidable (Strands source label) :=
  inferInstanceAs (Decidable (_ ∧ _))

theorem wakes_of_owes {state : State ι} {party : ι}
    (owes : (state.pc party).owes .readerDone = true) : Wakes party state := by
  intro labels final run completed
  exact notifies_of_owes owes run (Pc.owes_of_completed completed _)

theorem Pc.not_holds_of_ending {pc : Pc} (ending : pc.ending = true) : ¬ pc.phase.Holds := by
  cases pc with
  | setStopped => decide
  | update site | cas site packed =>
      cases site with
      | release sequence | unregister lastSeenSeq block | addReader | removeReader =>
          simp [phase, UpdateSite.phase, Protocol.Handshake.Phase.Holds]
      | _ => cases ending
  | _ => cases ending

theorem attempt_effect (site : UpdateSite) (packed : BitVec 64) :
    (attempt site packed).effect = .observe := by
  unfold attempt
  split
  · rfl
  · split <;> rfl

/-- A spurious failure changes no word. -/
theorem next_spurious_cas {msg : SharedMessage} {choice : Choice} {site : UpdateSite}
    {packed : BitVec 64} {act : Act} (step : next msg choice (.cas site packed) = some act)
    (chosen : choice ≠ .go) : act.effect = .observe := by
  cases choice with
  | go => exact absurd rfl chosen
  | spurious =>
      cases step
      simp only [casStep, Bool.true_eq_false, false_and, if_false]
      exact attempt_effect site msg.readersState
  | _ => cases step

/-- An exchange that finds its word unchanged takes effect. -/
theorem casStep_of_run {msg : SharedMessage} {site : UpdateSite} {policy : ReadersStateCount}
    (run : site.mutator.run msg.getReaderState = some policy) :
    casStep msg site msg.readersState false =
      ⟨.mutate site.mutator, site.after policy, site.event⟩ := by
  rw [SharedMessage.getReaderState] at run
  simp only [casStep, and_self, if_true, run]

/-- An operation that ends a writer's reason to wait wakes it, unless it strands it. -/
theorem wakes_of_not_strands {source target : State ι} {party : ι} {choice : Choice}
    (operation : (source.pc party).ending = true)
    (step : source.step (party, choice) = some target) (before : source.msg.MustWait)
    (after : ¬ target.msg.MustWait) (kept : ¬ Strands source (party, choice)) :
    Wakes party target := by
  obtain ⟨running, pending⟩ := before
  obtain ⟨act, next, rfl⟩ := State.step_eq_some_iff.mp step
  have takes := next_takes next
  refine wakes_of_owes ?_
  rw [State.perform_pc_self]
  cases stopped : (act.effect.apply source.msg).isStopped with
  | true =>
      rw [takes.stops running stopped]
      rfl
  | false =>
      have settled : ¬ (act.effect.apply source.msg).Pending := fun still => after ⟨stopped, still⟩
      cases takes.settles pending settled with
      | owes owes => exact owes
      | holder holds => exact absurd holds (Pc.not_holds_of_ending operation)
      | overflow lastSeenSeq block sequence at_ full consumed =>
          rw [at_] at operation
          cases operation
      | departure at_ one fewer =>
          refine absurd ⟨at_, ?_, running, one⟩ kept
          by_contra chosen
          rw [at_] at next
          rw [next_spurious_cas next chosen] at settled
          exact settled pending

/-- A departure that strands a writer is over at once and has notified nobody. -/
theorem not_wakes_of_strands {source target : State ι} {party : ι} {choice : Choice}
    (step : source.step (party, choice) = some target) (strands : Strands source (party, choice)) :
    source.msg.MustWait ∧ ¬ target.msg.MustWait ∧ ¬ Wakes party target := by
  obtain ⟨at_, chosen, running, one⟩ := strands
  obtain ⟨act, next, rfl⟩ := State.step_eq_some_iff.mp step
  simp only at at_ chosen
  have some : source.msg.getReaderState.consumers ≠ 0 := by
    intro none
    have last := one.2.2
    simp [none] at last
  have run : Mutator.removeReader.run source.msg.getReaderState =
      .some { source.msg.getReaderState with
        consumers := source.msg.getReaderState.consumers - 1 } := if_neg some
  rw [at_, chosen] at next
  have taken : act = ⟨.mutate .removeReader, .done .unit, .some .left⟩ :=
    (Option.some.inj next).symm.trans (casStep_of_run run)
  subst taken
  refine ⟨⟨running, one.pending⟩, ?_, ?_⟩
  · rintro ⟨_, pending⟩
    rw [State.perform_msg, SharedMessage.Pending, SharedMessage.getReaderState_mutate run] at pending
    exact ((ReadersStateCount.removeReader_settles_iff run).mpr one).2 pending
  · intro wakes
    obtain ⟨before, _, after, _, _, split, _⟩ :=
      wakes [] _ rfl (by rw [State.perform_pc_self]; rfl)
    simp at split

/-- An operation that ends a writer's reason to wait also wakes it, exactly if it is
not the departure of the one registered reader that is awaited.  Whether a writer
is parked makes no difference. -/
theorem wakes_iff_not_strands {source target : State ι} {party : ι} {choice : Choice}
    (operation : (source.pc party).ending = true)
    (step : source.step (party, choice) = some target) :
    (source.msg.MustWait → ¬ target.msg.MustWait → Wakes party target) ↔
      ¬ Strands source (party, choice) := by
  constructor
  · intro wakes strands
    obtain ⟨before, after, asleep⟩ := not_wakes_of_strands step strands
    exact asleep (wakes before after)
  · intro kept before after
    exact wakes_of_not_strands operation step before after kept

/-- One reader is registered and awaited, and a writer is about to sleep. -/
def awaitingWriter : State (Fin 2) :=
  (zeroed (Fin 2)).finish (State.fresh (Fin 2) 4 0 0)
    (calls 1 (.setTargetReadCount 65535) 5 ++ calls 1 .addReader 3 ++
      calls 0 (.writeSlice [7]) 16 ++ calls 0 .write 8) (by decide +kernel)

/-- The writer sleeps. -/
def parkedWriter : State (Fin 2) :=
  awaitingWriter.perform 0 (.goto (.parked (.backpressure .guard) 0))

theorem parkedWriter_reachable : (zeroed (Fin 2)).Reachable parkedWriter :=
  reachableVia_parked (System.reachable_finish (initial_fresh (Fin 2) 4 0 0) _)
    (by decide +kernel : awaitingWriter.pc 0 = .wait (.backpressure .guard) 0 1000)
    (by decide +kernel) fun _ _ => trivial

/-- The other party is about to stop the memory. -/
def stoppedWriter : State (Fin 2) :=
  (zeroed (Fin 2)).finish parkedWriter [(1, .invoke .stop)] (by decide +kernel)

theorem stop_wakes_stoppedWriter :
    ∃ target ∈ stoppedWriter.step (1, .go),
      stoppedWriter.msg.MustWait ∧ ¬ target.msg.MustWait ∧ Wakes 1 target := by
  obtain ⟨ending, kept, before, target, step, after⟩ :
      (stoppedWriter.pc 1).ending = true ∧ ¬ Strands stoppedWriter (1, .go) ∧
        stoppedWriter.msg.MustWait ∧
          ∃ target ∈ stoppedWriter.step (1, .go), ¬ target.msg.MustWait := by
    decide +kernel
  exact ⟨target, step, before, after, (wakes_iff_not_strands ending step).mpr kept before after⟩

/-- The only reader is about to leave. -/
def strandedWriter : State (Fin 2) :=
  (zeroed (Fin 2)).finish parkedWriter (calls 1 .removeReader 1) (by decide +kernel)

/-- The departure ends the writer's reason to wait and completes at once. -/
theorem departure_strands_writer :
    (zeroed (Fin 2)).Reachable strandedWriter ∧
      strandedWriter.pc 0 = .parked (.backpressure .guard) 0 ∧ strandedWriter.msg.MustWait ∧
      ∃ target ∈ strandedWriter.step (1, .go), ¬ target.msg.MustWait ∧
        target.pc 1 = .done .unit ∧
        target.msg.notified .readerDone = strandedWriter.msg.notified .readerDone :=
  ⟨System.Reachable.exec parkedWriter_reachable (System.exec_eq_finish _ _ _ _),
    by decide +kernel⟩

end RsIpc
