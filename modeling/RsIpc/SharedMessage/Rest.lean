import RsIpc.SharedMessage.Exclusion
import RsIpc.SharedMessage.Waking
import RsIpc.SharedMessage.Waiting
import RsIpc.Transition.Client

/-!
# Parties at rest

A party comes to rest where the program has no step of its own for it.  A writer that
has raised the flag rests only as long as some reader is registered.
-/

namespace RsIpc

open Protocol.Handshake Transition

universe u v w

/-- The party is in no call, asleep, has a guard in hand, or waits for the mutex. -/
inductive Pc.Rests (msg : SharedMessage) : Pc → Prop
  | idle : Rests msg .idle
  | parked (site : WaitSite) (ticket : Nat) : Rests msg (.parked site ticket)
  | readGuard (sequence : BitVec 64) : Rests msg (.readGuard sequence)
  | writeGuard : Rests msg .writeGuard
  | lock (writer : Writer) (taken : msg.writerMutex = true) : Rests msg (.lock writer)
  | lockTarget (count : BitVec 16) (taken : msg.writerMutex = true) : Rests msg (.lockTarget count)

theorem rests_of_advance {msg : SharedMessage} {pc : Pc} (none : advance msg pc = none) :
    pc.Rests msg := by
  cases pc with
  | idle => exact .idle
  | parked site ticket => exact .parked site ticket
  | readGuard sequence => exact .readGuard sequence
  | writeGuard => exact .writeGuard
  | lock writer =>
      cases taken : msg.writerMutex with
      | true => exact .lock writer taken
      | false => simp [advance, taken] at none
  | lockTarget count =>
      cases taken : msg.writerMutex with
      | true => exact .lockTarget count taken
      | false => simp [advance, taken] at none
  | _ => cases none

theorem rests_of_step_eq_none {ι : Type u} [DecidableEq ι] {state : State ι} {party : ι}
    (none : state.step (party, .go) = none) : (state.pc party).Rests state.msg := by
  apply rests_of_advance
  rw [State.step, Option.map_eq_none_iff] at none
  exact none

/-- Whoever rests owes nothing. -/
theorem Pc.Rests.owes {msg : SharedMessage} {pc : Pc} (rests : pc.Rests msg) (which : Condvar) :
    pc.owes which = false := by
  cases rests <;> cases which <;> rfl

theorem Pc.Rests.waking {msg : SharedMessage} {pc : Pc} (rests : pc.Rests msg) :
    pc.waking = none := by
  cases rests <;> rfl

/-! ## The drain loop -/

/-- The ticket with which a writer waits for active readers. -/
def Pc.draining : Pc → Option Nat
  | .drainStopped _ ticket | .wait (.drain _) ticket _ | .parked (.drain _) ticket => some ticket
  | _ => none

theorem WaitSite.draining_resume (site : WaitSite) : site.resume.draining = none := by
  cases site <;> rfl

theorem Pc.ticket_of_draining {pc : Pc} {ticket : Nat} (draining : pc.draining = some ticket) :
    pc.ticket = some (.readerDone, ticket) := by
  cases pc with
  | drainStopped writer other =>
      cases draining
      rfl
  | wait site other spins | parked site other =>
      cases site <;> cases draining
      rfl
  | _ => cases draining

/-- A writer comes to the drain loop with a reader active. -/
theorem Takes.draining {msg : SharedMessage} {pc : Pc} {act : Act} (takes : Takes msg pc act)
    {ticket : Nat} (draining : act.pc.draining = some ticket) :
    pc.draining = some ticket ∨ 0 < msg.getReaderState.activeReaders := by
  cases takes with
  | drainBusy writer other busy => exact .inr busy
  | drainWait writer other running => exact .inl draining
  | spin site other spins same | park site other same =>
      cases site with
      | drain writer => exact .inl draining
      | _ => cases draining
  | notify site | wake site => cases site <;> cases draining
  | invoke operation => cases operation <;> cases draining
  | waitReturns site other spins changed | wakeUp site other => cases site <;> cases draining
  | update site policy run =>
      cases site with
      | release sequence =>
          simp only [UpdateSite.after] at draining
          split at draining <;> cases draining
      | _ => cases draining
  | _ => cases draining

/-- A registration ends with a debt, or other readers are active. -/
theorem Takes.unregisters {msg : SharedMessage} {pc : Pc} {act : Act} (takes : Takes msg pc act)
    (before : pc.phase.Reads) (after : ¬ act.pc.phase.Reads) :
    act.pc.owes .readerDone = true ∨ (act.effect.apply msg).getReaderState.activeReaders ≠ 0 := by
  have effect : act.effect = .mutate .unregister ∨ act.effect = .mutate .release := by
    cases takes.move with
    | unregister was is now => exact .inl is
    | release was is now => exact .inr is
    | observe same is | notify which same is | wake which same is | setStopped same is =>
        rw [same] at after
        exact absurd before after
    | granted down was is now =>
        rw [now] at after
        exact absurd (.inr rfl) after
    | lock free was is now | setWriting was is now | drained none was is now
    | clearWriting was is now | storeByte index byte was is now | storeSize size was is now
    | resetConsumed was is now | publish was is now | abandon was is now | unlock was is now
    | setTarget count was is now | register was is now | addReader was is now
    | removeReader was is now =>
        rw [was] at before
        exact absurd before (by decide)
  cases takes with
  | update site policy run =>
      rw [SharedMessage.getReaderState_mutate run]
      cases site with
      | release sequence =>
          by_cases none : policy.activeReaders = 0
          · left
            simp only [UpdateSite.after, none, if_true]
            rfl
          · exact .inr none
      | unregister lastSeenSeq block => exact .inl rfl
      | _ => rcases effect with is | is <;> cases is
  | _ => rcases effect with is | is <;> cases is

section Runs

variable {ι : Type u} [DecidableEq ι] [Fintype ι] {targetRead consumers : BitVec 16}

/-- While nobody is notified, a registration stays or leaves a debt. -/
theorem registrations_or_owed_of_step {source target : State ι} {party : ι} {choice : Choice}
    (reachable : (system ι targetRead consumers).Reachable source)
    (step : source.step (party, choice) = some target)
    (same : target.msg.notified .readerDone = source.msg.notified .readerDone)
    (before : 0 < source.registrations ∨ source.Owed .readerDone) :
    0 < target.registrations ∨ target.Owed .readerDone := by
  rcases before with registered | owed
  · rcases Nat.eq_zero_or_pos target.registrations with none | some
    · right
      have idle := activeReaders_eq_registrations (reachable.step step trivial)
      rw [none] at idle
      obtain ⟨act, next, rfl⟩ := State.step_eq_some_iff.mp step
      have moved := source.registrations_perform party act
      have reads : (source.pc party).phase.Reads ∧ ¬ act.pc.phase.Reads := by
        simp only [registration] at moved
        split at moved <;> split at moved
        all_goals first | omega | exact ⟨‹_›, ‹_›⟩
      rcases (next_takes next).unregisters reads.1 reads.2 with owes | active
      · exact ⟨party, by rwa [State.perform_pc_self]⟩
      · exact absurd idle active
    · exact .inl some
  · exact .inr (owed_of_step step owed same)

/-- A writer in the drain loop whose ticket is current waits for a registered reader, or
somebody owes it a notification. -/
theorem registrations_or_owed_of_draining {ok : StepCondition (State ι) (ι × Choice)}
    {state : State ι} (reachable : (system ι targetRead consumers).ReachableVia ok state) {party : ι}
    (draining : (state.pc party).draining = some (state.msg.notified .readerDone)) :
    0 < state.registrations ∨ state.Owed .readerDone := by
  refine reachable.invariant (fun state => ∀ party,
    (state.pc party).draining = some (state.msg.notified .readerDone) →
      0 < state.registrations ∨ state.Owed .readerDone) ?_ ?_ party draining
  · rintro _ ⟨capacity, rfl⟩ party draining
    cases draining
  · rintro source ⟨party, choice⟩ target before kept step _ other draining
    have same := notified_same_of_step before.reachable step (Pc.ticket_of_draining draining)
    refine registrations_or_owed_of_step before.reachable step same ?_
    rw [same] at draining
    obtain ⟨act, next, rfl⟩ := State.step_eq_some_iff.mp step
    by_cases here : other = party
    · subst here
      rw [State.perform_pc_self] at draining
      rcases (next_takes next).draining draining with already | active
      · exact kept other already
      · left
        by_contra none
        have idle := activeReaders_eq_registrations before.reachable
        rw [Nat.eq_zero_of_not_pos none] at idle
        rw [idle] at active
        exact absurd active (by decide)
    · rw [State.perform_pc_of_ne source here] at draining
      rw [Pc.after_self Pc.draining WaitSite.draining_resume draining] at draining
      exact kept other draining

end Runs

/-! ## Between calls -/

theorem WaitSite.idle_resume (site : WaitSite) (ticket : Nat) :
    decide (site.resume = .idle) = decide (Pc.parked site ticket = .idle) := by
  cases site <;> rfl

/-- What waiting does not change survives the steps that a client takes for others. -/
theorem State.view_of_took {ι : Type u} [DecidableEq ι] {targetRead consumers : BitVec 16}
    {α : Type v} (view : Pc → α)
    (resume : ∀ site ticket, view site.resume = view (.parked site ticket))
    {source target : State ι} {party : ι} {taken : Option Choice}
    (took : (system ι targetRead consumers).Took source
      (taken.map fun taken => (party, taken)) target)
    {other : ι} (ne : other ≠ party) : view (target.pc other) = view (source.pc other) := by
  cases taken with
  | none => rw [show target = source from took]
  | some choice => exact State.view_of_step view resume took ne

/-- Whoever is in no call takes no step but the start of one. -/
theorem invokes_of_idle {ι : Type u} [DecidableEq ι] {source target : State ι} {party : ι}
    {choice : Choice} (step : source.step (party, choice) = some target)
    (idle : source.pc party = .idle) : ∃ operation, choice = .invoke operation := by
  obtain ⟨act, chosen, _⟩ := State.step_eq_some_iff.mp step
  rw [idle] at chosen
  obtain ⟨operation, is, _⟩ := next_idle chosen
  exact ⟨operation, is⟩

/-! ## Falling asleep -/

/-- While the word keeps its value, a client that lets a waiting party go on makes it
spin to the end and park. -/
theorem parks_of_spin {ι : Type u} [DecidableEq ι] {E : Type v} {K : Type w} {client : Client (State ι) (ι × Choice) E K}
    {start : E} {targetRead consumers : BitVec 16} {ok : StepCondition (Joint (State ι) E) K}
    {core : State ι} {own : E} {party : ι} {choice : K} {site : WaitSite} {ticket spins : Nat}
    (reachable : ((system ι targetRead consumers).joint client start).ReachableVia ok ⟨core, own⟩)
    (goes : ∀ {core : State ι} {spins : Nat}, core.pc party = .wait site ticket spins →
      client core own choice = some (some (party, .go), own))
    (waits : core.pc party = .wait site ticket spins)
    (same : (core.msg.condvar site.condvar).value = SharedCondvar.word ticket)
    (meets : ∀ spins next, ok ⟨core.perform party (.goto (.wait site ticket spins)), own⟩ choice
      ⟨core.perform party (.goto next), own⟩) :
    ((system ι targetRead consumers).joint client start).ReachableVia ok
      ⟨core.perform party (.goto (.parked site ticket)), own⟩ := by
  have spin : ∀ {core : State ι} {spins : Nat} {next : Pc},
      core.pc party = .wait site ticket spins → waitStep core.msg site ticket spins = .goto next →
        ((system ι targetRead consumers).joint client start).step ⟨core, own⟩ choice =
          some ⟨core.perform party (.goto next), own⟩ := by
    intro core spins next waits taken
    have step : (system ι targetRead consumers).Took core (some (party, .go))
        (core.perform party (.goto next)) := step_spin waits taken
    exact System.step_joint (goes waits) step
  induction spins generalizing core with
  | zero =>
      have meet := meets 0 (.parked site ticket)
      rw [State.perform_goto_self waits] at meet
      exact reachable.step (spin waits (if_neg (not_not.mpr same))) meet
  | succ spins ih =>
      have meet := meets (spins + 1) (.wait site ticket spins)
      rw [State.perform_goto_self waits] at meet
      have spun := reachable.step (spin waits (if_neg (not_not.mpr same))) meet
      have parked := ih spun (State.perform_pc_self core party _) same fun spins next => by
        rw [State.perform_goto, State.perform_goto]
        exact meets spins next
      rwa [State.perform_goto] at parked

end RsIpc
