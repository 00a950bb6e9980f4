import RsIpc.SharedMessage.Waking

/-!
# Reads that should not block

`read` looks at its argument `block` only where there is nothing new.  Where there
is something new and a write is in progress, it waits whatever the argument says.
-/

namespace RsIpc

open Transition

universe u

/-- The argument of a call of `read` that should not block. -/
def WaitSite.unasked : WaitSite → Option (BitVec 64)
  | .reader lastSeenSeq false => some lastSeenSeq
  | _ => none

/-- The argument with which such a call is inside `wait`. -/
def Pc.unasked : Pc → Option (BitVec 64)
  | .wait site _ _ | .parked site _ => site.unasked
  | _ => none

/-- The argument of such a call that is about to load the sequence word. -/
def Pc.unaskedLoad : Pc → Option (BitVec 64)
  | .readState lastSeenSeq false _ => some lastSeenSeq
  | _ => none

theorem WaitSite.unasked_resume (site : WaitSite) : site.resume.unasked = none := by
  cases site <;> rfl

/-- A non-blocking `read` enters `wait` from where it loaded the sequence word. -/
theorem Takes.unasked {msg : SharedMessage} {pc : Pc} {act : Act} (takes : Takes msg pc act)
    {lastSeenSeq : BitVec 64} (waits : act.pc.unasked = some lastSeenSeq) :
    pc.unasked = some lastSeenSeq ∨ ∃ ticket, pc = .readState lastSeenSeq false ticket := by
  cases takes with
  | readWait last block ticket reason =>
      cases block with
      | true => cases waits
      | false =>
          cases waits
          exact .inr ⟨ticket, rfl⟩
  | spin site ticket spins same | park site ticket same => exact .inl waits
  | waitReturns site ticket spins changed | wakeUp site ticket =>
      rw [WaitSite.unasked_resume] at waits
      cases waits
  | notify site | wake site => cases site <;> cases waits
  | invoke operation => cases operation <;> cases waits
  | update site policy run =>
      cases site with
      | release sequence =>
          simp only [UpdateSite.after] at waits
          split at waits <;> cases waits
      | _ => cases waits
  | _ => cases waits

/-- With `block` unset, `read` waits exactly if a write is in progress over something new. -/
theorem readDecision_unasked_iff (state : SequenceState) (lastSeenSeq : BitVec 64) (ticket : Nat) :
    (readDecision state lastSeenSeq false ticket).pc.unasked = some lastSeenSeq ↔
      state.sequence ≠ lastSeenSeq ∧ state.writingInProgress = true := by
  by_cases same : state.sequence = lastSeenSeq
  · by_cases stopped : state.stopped <;> simp [readDecision, same, stopped, Pc.unasked]
  · by_cases busy : state.writingInProgress <;> simp [readDecision, same, busy, Pc.unasked, WaitSite.unasked]

variable {ι : Type u}

/-- A non-blocking `read` that loads the sequence word and finds something new finds
no write in progress. -/
def FindsNoWrite : StepCondition (State ι) (ι × Choice) :=
  fun source label _ => ∀ lastSeenSeq ∈ (source.pc label.1).unaskedLoad,
    source.msg.currentSequence ≠ lastSeenSeq →
      source.msg.getSequenceState.writingInProgress = false

variable [DecidableEq ι] {targetRead consumers : BitVec 16}

/-- No call that should not block gets into `wait`. -/
theorem unasked_eq_none {state : State ι}
    (reachable : (system ι targetRead consumers).ReachableVia FindsNoWrite state) (party : ι) :
    (state.pc party).unasked = none := by
  refine reachable.invariant (fun state => ∀ party, (state.pc party).unasked = none) ?_ ?_ party
  · rintro _ ⟨capacity, rfl⟩ party
    rfl
  · rintro source ⟨party, choice⟩ target _ awake step finds other
    obtain ⟨act, taken, rfl⟩ := State.step_eq_some_iff.mp step
    rw [Option.eq_none_iff_forall_ne_some]
    intro lastSeenSeq waits
    by_cases here : other = party
    · subst here
      rw [State.perform_pc_self] at waits
      rcases (next_takes taken).unasked waits with before | ⟨ticket, loads⟩
      · exact Option.some_ne_none _ (before.symm.trans (awake other))
      · have decides : act = readDecision source.msg.getSequenceState lastSeenSeq false ticket := by
          rw [loads] at taken
          cases choice <;> cases taken
          rfl
        rw [decides, readDecision_unasked_iff] at waits
        have down := finds lastSeenSeq (by rw [loads]; rfl) waits.1
        exact Bool.noConfusion (waits.2.symm.trans down)
    · rw [State.perform_pc_of_ne source here] at waits
      rw [Pc.after_self Pc.unasked WaitSite.unasked_resume waits] at waits
      exact Option.some_ne_none _ (waits.symm.trans (awake other))

/-- Alone, a party that waits on a current ticket spins to the end and parks. -/
theorem alone_parks {state : State ι} {party : ι} {site : WaitSite} {ticket spins : Nat}
    (waits : state.pc party = .wait site ticket spins)
    (same : (state.msg.condvar site.condvar).value = SharedCondvar.word ticket) :
    Alone party state (state.perform party (.goto (.parked site ticket))) := by
  have taken : ∀ {next}, waitStep state.msg site ticket spins = .goto next →
      RsIpc.next state.msg .go (state.pc party) = some (.goto next) := by
    intro next step
    rw [waits]
    exact congrArg some step
  induction spins generalizing state with
  | zero => exact Alone.step (taken (if_neg (not_not.mpr same))) (Alone.refl party _)
  | succ spins ih =>
      refine Alone.step (taken (if_neg (not_not.mpr same))) ?_
      have parks := @ih (state.perform party (.goto (.wait site ticket spins)))
        (State.perform_pc_self _ _ _) same fun step => by
          rw [State.perform_pc_self]
          exact congrArg some step
      rwa [State.perform_goto] at parks

/-- Alone, a party that waits on the memory's own reasons parks. -/
theorem alone_sleeps {source : State ι} {party : ι} {lastSeenSeq : BitVec 64} {ticket : Nat}
    (loads : source.pc party = .readState lastSeenSeq false ticket)
    (new : source.msg.currentSequence ≠ lastSeenSeq)
    (busy : source.msg.getSequenceState.writingInProgress = true) :
    ∃ target, Alone party source target ∧
      ∃ ticket, target.pc party = .parked (.reader lastSeenSeq false) ticket := by
  have decides : ∀ ticket, readDecision source.msg.getSequenceState lastSeenSeq false ticket =
      .goto (.wait (.reader lastSeenSeq false) ticket maxSpins) := by
    intro ticket
    have other : ¬ (source.msg.getSequenceState.stopped ∧
        source.msg.getSequenceState.sequence = lastSeenSeq) := fun ended => new ended.2
    exact ((if_neg other).trans (if_neg new)).trans (if_pos busy)
  refine Alone.advance loads (congrArg some (decides ticket)) fun waits => ?_
  by_cases current : (source.msg.condvar .writer).value = SharedCondvar.word ticket
  · exact ⟨_, alone_parks waits current, ticket, State.perform_pc_self _ _ _⟩
  · refine Alone.advance waits (congrArg some (if_pos current)) fun again => ?_
    refine Alone.advance again rfl fun loads => ?_
    refine Alone.advance loads (congrArg some (decides _)) fun waits => ?_
    exact ⟨_, alone_parks waits rfl, _, State.perform_pc_self _ _ _⟩

/-- In a run in which every non-blocking `read` of something new finds no write in
progress, no such call is ever parked.  Where one does find a write in progress,
it parks unless another party steps in. -/
theorem nonblocking_read_parks (ι : Type u) [DecidableEq ι] (targetRead consumers : BitVec 16) :
    (∀ {state}, (system ι targetRead consumers).ReachableVia FindsNoWrite state →
      ∀ party lastSeenSeq ticket, state.pc party ≠ .parked (.reader lastSeenSeq false) ticket) ∧
    (∀ {source : State ι} {party lastSeenSeq ticket},
      source.pc party = .readState lastSeenSeq false ticket →
      source.msg.currentSequence ≠ lastSeenSeq →
      source.msg.getSequenceState.writingInProgress = true →
      ∃ target, Alone party source target ∧
        ∃ ticket, target.pc party = .parked (.reader lastSeenSeq false) ticket) := by
  constructor
  · intro state reachable party lastSeenSeq ticket parked
    have awake := unasked_eq_none reachable party
    rw [parked] at awake
    cases awake
  · intro source party lastSeenSeq ticket loads new busy
    exact alone_sleeps loads new busy

/-! ## A write guard is held -/

instance (source : State ι) (label : ι × Choice) (target : State ι) :
    Decidable (FindsNoWrite source label target) :=
  Option.decidableForallMem _

/-- A message is published and a write guard is held; a non-blocking `read` looks for
the message, up to the given number of its steps. -/
def busyRun (steps : Nat) : List (Fin 2 × Choice) :=
  calls 0 (.writeSlice [7]) 16 ++ calls 0 .write 7 ++ calls 1 (.read 0 false) steps

/-- The call is about to load the sequence word. -/
def busyLoad : State (Fin 2) :=
  (zeroed (Fin 2)).finish (State.fresh (Fin 2) 1 0 0) (busyRun 1) (by decide +kernel)

theorem nonblocking_read_parks_two :
    busyLoad.pc 1 ≠ .parked (.reader 0 false) 1 ∧
      ∃ target, Alone 1 busyLoad target ∧
        ∃ ticket, target.pc 1 = .parked (.reader 0 false) ticket := by
  have facts : (zeroed (Fin 2)).StepsMeet FindsNoWrite (State.fresh (Fin 2) 1 0 0) (busyRun 1) ∧
      busyLoad.pc 1 = .readState 0 false 1 ∧ busyLoad.msg.currentSequence ≠ 0 ∧
      busyLoad.msg.getSequenceState.writingInProgress = true := by
    decide +kernel
  obtain ⟨meets, loads, new, busy⟩ := facts
  exact ⟨(nonblocking_read_parks (Fin 2) 0 0).1
      (System.reachableVia_finish (initial_fresh (Fin 2) 1 0 0) _ meets) 1 0 1,
    (nonblocking_read_parks (Fin 2) 0 0).2 loads new busy⟩

/-- The call has entered `wait`. -/
def busyWait : State (Fin 2) :=
  (zeroed (Fin 2)).finish (State.fresh (Fin 2) 1 0 0) (busyRun 2) (by decide +kernel)

/-- The call has spun to the end. -/
def sleepingPoll : State (Fin 2) :=
  busyWait.perform 1 (.goto (.parked (.reader 0 false) 1))

/-- The message is there, the guard is held, and the call that should not block is
parked. -/
theorem nonblocking_read_parked :
    (zeroed (Fin 2)).Reachable sleepingPoll ∧ sleepingPoll.pc 1 = .parked (.reader 0 false) 1 ∧
      sleepingPoll.msg.currentSequence = 1 ∧ sleepingPoll.pc 0 = .writeGuard := by
  have facts : busyWait.pc 1 = .wait (.reader 0 false) 1 1000 ∧
      busyWait.msg.writerCondvar.notified = 1 ∧
      sleepingPoll.msg.currentSequence = 1 ∧ sleepingPoll.pc 0 = .writeGuard := by
    decide +kernel
  obtain ⟨waits, current, new, held⟩ := facts
  have reachable := reachableVia_parked (System.reachable_finish (initial_fresh (Fin 2) 1 0 0) _)
    waits (congrArg SharedCondvar.word current) fun _ _ => trivial
  exact ⟨reachable, State.perform_pc_self busyWait 1 _, new, held⟩

end RsIpc
