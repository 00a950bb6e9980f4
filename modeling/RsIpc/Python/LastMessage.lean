import RsIpc.Python.ReadSync
import RsIpc.SharedMessage.Within

/-!
# The last message of a stopped memory

A reader that keeps calling until the first `None` expects to have the last message
by then.  A `ReadSync` instance with one caller decides from the stopped flag and the
number together, so `None` comes only once the last number is the one stored.
-/

namespace RsIpc

open Protocol Transition SequenceState

universe u v w

section LastMessage

variable {ι : Type u} {E : Type v} {K : Type w}

/-- Whoever keeps calling until the first `None` has the last message by then: if the
memory is running and nothing is published afterwards, the current message is among
those returned once the caller has got `None`. -/
def EndsWithLast (system : System (Joint (State ι) E) K)
    (blocks ok : StepCondition (Joint (State ι) E) K) (gotNone : Joint (State ι) E → Prop)
    (returned : Joint (State ι) E → List (BitVec 64)) : Prop :=
  ∀ state, system.ReachableVia blocks state → state.core.msg.isStopped = false →
    0 < state.core.publishes → ∀ choices target, system.exec state choices = some target →
      system.StepsMeet (fun source choice target => blocks source choice target ∧
        ok source choice target) state choices →
      target.core.publishes = state.core.publishes → gotNone target →
        state.core.msg.currentSequence ∈ returned target

end LastMessage

/-! ## One caller of a `ReadSync` instance -/

/-- A blocking `read` ends with `None` only if the memory is stopped and the number is
the one that it was given. -/
theorem Takes.read_none {msg : SharedMessage} {pc : Pc} {act : Act} (takes : Takes msg pc act)
    {lastSeenSeq : BitVec 64} (within : pc.Within msg.capacity (.read lastSeenSeq true))
    (none : act.pc = .done .none) :
    msg.isStopped = true ∧ pc.lastSeen = some msg.currentSequence := by
  cases takes with
  | readEnded lastSeenSeq block ticket stopped same => exact ⟨stopped, congrArg some same.symm⟩
  | readNothing lastSeenSeq ticket running same => cases within
  | refuse writer stopped => cases writer <;> cases within
  | unlock outcome => exact within.1.elim
  | abandon outcome =>
      obtain ⟨_, newData, is, _⟩ := within
      cases is
  | refuseSize size large => cases within
  | invoke operation => cases within
  | waitReturns site ticket spins changed | wakeUp site ticket => cases site <;> cases none
  | wake site => cases site <;> cases none
  | update site policy run =>
      cases site with
      | release number =>
          simp only [UpdateSite.after] at none
          split at none <;> cases none
      | _ => cases none
  | _ => cases none

/-- The party is in no call, or in a blocking `read`. -/
def Pc.OnlyReads (capacity : Nat) (pc : Pc) : Prop :=
  pc = .idle ∨ ∃ lastSeenSeq, pc.Within capacity (.read lastSeenSeq true)

theorem WaitSite.onlyReads_resume (capacity : Nat) (site : WaitSite) (ticket : Nat) :
    site.resume.OnlyReads capacity = (Pc.parked site ticket).OnlyReads capacity := by
  cases site <;> simp [Pc.OnlyReads, WaitSite.resume, Pc.Within, WaitSite.operation]

/-- A step other than a call leaves it so. -/
theorem Takes.onlyReads {msg : SharedMessage} {pc : Pc} {act : Act} (takes : Takes msg pc act)
    (reading : pc.OnlyReads msg.capacity) (inCall : pc ≠ .idle) : act.pc.OnlyReads msg.capacity := by
  rcases reading with idle | ⟨lastSeenSeq, within⟩
  · exact absurd idle inCall
  · rcases takes.within within with still | ⟨outcome, rfl⟩
    · exact .inr ⟨lastSeenSeq, still⟩
    · cases takes with
      | finish => exact .inl rfl
      | unchanged size at_ same | unchangedTarget count at_ same | compute site at_
      | panic site at_ membership => rcases at_ with is | ⟨packed, is⟩ <;> cases is

/-- The party has got `None`. -/
def Pc.GotNone (pc : Pc) : Prop :=
  pc = .done .none

theorem WaitSite.gotNone_resume (site : WaitSite) (ticket : Nat) :
    site.resume.GotNone = (Pc.parked site ticket).GotNone := by
  cases site <;> simp [Pc.GotNone, WaitSite.resume]

namespace ReadSync

variable {ι : Type u} [DecidableEq ι]

/-- The caller blocks. -/
def Blocks : StepCondition (Joint (State ι) (Instance ι)) (Choice ι) :=
  fun _ choice _ => ∀ thread, choice ≠ .read thread false

/-- What the only caller of an instance keeps: its point, the number it was called
with, and the numbers it has. -/
structure Calling (caller : ι) (state : Joint (State ι) (Instance ι)) : Prop where
  reading : (state.core.pc caller).OnlyReads state.core.msg.capacity
  seen : ∀ lastSeenSeq, (state.core.pc caller).lastSeen = some lastSeenSeq →
    lastSeenSeq = state.own.lastReadSequence
  held : ∀ sequence, (state.core.pc caller).held = some sequence →
    sequence ∈ History.admitted (· = caller) state.core.log
  stored : state.own.lastReadSequence = 0 ∨
    state.own.lastReadSequence ∈ History.admitted (· = caller) state.core.log
  stopped : (state.core.pc caller).GotNone → state.core.msg.isStopped = true

section Steps

variable {caller : ι} {targetRead consumers : BitVec 16}

theorem admitted_subset_of_step {source target : State ι} {label : ι × RsIpc.Choice}
    (step : source.step label = some target) {sequence : BitVec 64}
    (admitted : sequence ∈ History.admitted (· = caller) source.log) :
    sequence ∈ History.admitted (· = caller) target.log := by
  obtain ⟨act, _, rfl⟩ := State.step_eq_some_iff.mp step
  rw [State.perform_log, History.admitted_append]
  exact List.mem_append_left _ admitted

/-- A step of another party leaves the caller where it is. -/
theorem Calling.others {source : Joint (State ι) (Instance ι)} (calling : Calling caller source)
    {party : ι} {choice : RsIpc.Choice} {core : State ι} (theirs : party ≠ caller)
    (taken : source.core.step (party, choice) = some core) : Calling caller ⟨core, source.own⟩ := by
  obtain ⟨act, next, is⟩ := State.step_eq_some_iff.mp taken
  constructor
  · change (core.pc caller).OnlyReads core.msg.capacity
    rw [is, State.perform_msg, Effect.capacity_apply,
      State.view_perform (Pc.OnlyReads source.core.msg.capacity)
        (WaitSite.onlyReads_resume source.core.msg.capacity), if_neg theirs.symm]
    exact calling.reading
  · intro lastSeenSeq seen
    rcases lastSeen_of_step taken seen with before | ⟨same, _⟩
    · exact calling.seen lastSeenSeq before
    · exact absurd same.symm theirs
  · intro sequence held
    exact admitted_subset_of_step taken
      (calling.held sequence ((held_of_ne taken theirs.symm).symm.trans held))
  · exact calling.stored.imp_right (admitted_subset_of_step taken)
  · intro none
    change (core.pc caller).GotNone at none
    rw [is, State.view_perform Pc.GotNone WaitSite.gotNone_resume, if_neg theirs.symm] at none
    exact isStopped_of_step taken (calling.stopped none)

/-- A step of the caller in its call. -/
theorem Calling.run {source : Joint (State ι) (Instance ι)} (calling : Calling caller source)
    {choice : RsIpc.Choice} {core : State ι} (notCall : ∀ operation, choice ≠ .invoke operation)
    (taken : source.core.step (caller, choice) = some core) : Calling caller ⟨core, source.own⟩ := by
  obtain ⟨act, next, is⟩ := State.step_eq_some_iff.mp taken
  have inCall : source.core.pc caller ≠ .idle := by
    intro idle
    rw [idle] at next
    obtain ⟨operation, call, _⟩ := next_idle next
    exact notCall operation call
  constructor
  · change (core.pc caller).OnlyReads core.msg.capacity
    rw [is, State.perform_msg, Effect.capacity_apply, State.perform_pc_self]
    exact (next_takes next).onlyReads calling.reading inCall
  · intro lastSeenSeq seen
    rcases lastSeen_of_step taken seen with before | ⟨_, _, block, call⟩
    · exact calling.seen lastSeenSeq before
    · exact absurd call (notCall _)
  · intro sequence held
    change (core.pc caller).held = some sequence at held
    rw [is, State.perform_pc_self] at held
    obtain ⟨_, event, _⟩ := (next_takes next).held held
    change sequence ∈ History.admitted (· = caller) core.log
    rw [is, State.perform_log, event, History.admitted_append]
    simp [History.admitted]
  · exact calling.stored.imp_right (admitted_subset_of_step taken)
  · intro none
    change (core.pc caller).GotNone at none
    rw [is, State.perform_pc_self] at none
    rcases calling.reading with idle | ⟨lastSeenSeq, within⟩
    · exact absurd idle inCall
    · exact isStopped_of_step taken ((next_takes next).read_none within none).1

/-- The caller calls with the number stored. -/
theorem Calling.call {source : Joint (State ι) (Instance ι)} (calling : Calling caller source)
    {own : Instance ι} (same : own.lastReadSequence = source.own.lastReadSequence) {core : State ι}
    (taken : source.core.step (caller, .invoke (.read source.own.lastReadSequence true)) =
      some core) : Calling caller ⟨core, own⟩ := by
  obtain ⟨act, next, is⟩ := State.step_eq_some_iff.mp taken
  obtain ⟨_, rfl⟩ := next_invoke next
  have at_ : core.pc caller = .readTicket source.own.lastReadSequence true := by
    rw [is, State.perform_pc_self]
    rfl
  constructor
  · change (core.pc caller).OnlyReads core.msg.capacity
    rw [at_]
    exact .inr ⟨_, rfl⟩
  · intro lastSeenSeq seen
    change (core.pc caller).lastSeen = some lastSeenSeq at seen
    rw [at_] at seen
    cases seen
    exact same.symm
  · intro sequence held
    change (core.pc caller).held = some sequence at held
    rw [at_] at held
    cases held
  · change own.lastReadSequence = 0 ∨
      own.lastReadSequence ∈ History.admitted (· = caller) core.log
    rw [same]
    exact calling.stored.imp_right (admitted_subset_of_step taken)
  · intro none
    change core.pc caller = _ at none
    rw [at_] at none
    cases none

theorem Calling.step {source target : Joint (State ι) (Instance ι)} {choice : Choice ι}
    (calling : Calling caller source)
    (step : (system (· = caller) targetRead consumers).step source choice = some target)
    (blocks : Blocks source choice target) : Calling caller target := by
  cases moves_of_step step with
  | others party choice theirs taken => exact calling.others theirs taken
  | read thread block ours taken =>
      subst ours
      cases block with
      | true =>
          refine calling.call ?_ taken
          rfl
      | false => exact absurd rfl (blocks thread)
  | run thread spurious ours taken =>
      subst ours
      exact calling.run (fun _ is => by cases spurious <;> cases is) taken
  | store thread sequence ours holds unstored =>
      subst ours
      have held := calling.held sequence (by rw [holds]; rfl)
      refine ⟨calling.reading, fun lastSeenSeq seen => ?_, calling.held, .inr held, calling.stopped⟩
      change (source.core.pc thread).lastSeen = some lastSeenSeq at seen
      rw [holds] at seen
      cases seen
  | drop thread ours stored taken =>
      subst ours
      exact calling.run (fun _ is => by cases is) taken

theorem calling_of_blocks {state : Joint (State ι) (Instance ι)}
    (reachable : (system (· = caller) targetRead consumers).ReachableVia Blocks state) :
    Calling caller state := by
  refine reachable.invariant (Calling caller) ?_ fun _ calling step blocks => calling.step step blocks
  rintro ⟨core, own⟩ ⟨⟨capacity, rfl⟩, rfl⟩
  exact {
    reading := .inl rfl
    seen := fun _ seen => by cases seen
    held := fun _ held => by cases held
    stored := .inl rfl
    stopped := fun none => by cases none }

/-- If nothing was published since, a caller that has got `None` has stored the number
of this many publishes. -/
def CaughtUp (caller : ι) (publishes : Nat) (state : Joint (State ι) (Instance ι)) : Prop :=
  publishes ≤ state.core.publishes ∧ (state.core.publishes = publishes →
    (state.core.pc caller).GotNone → state.own.lastReadSequence.toNat = numberAfter publishes)

theorem CaughtUp.step {publishes : Nat} {source target : Joint (State ι) (Instance ι)}
    {choice : Choice ι} (reachable : (system (· = caller) targetRead consumers).Reachable source)
    (calling : Calling caller source) (caughtUp : CaughtUp caller publishes source)
    (step : (system (· = caller) targetRead consumers).step source choice = some target) :
    CaughtUp caller publishes target := by
  have grows := publishes_le_of_step step
  refine ⟨caughtUp.1.trans grows, fun same none => ?_⟩
  have sameBefore : source.core.publishes = publishes :=
    Nat.le_antisymm (grows.trans same.le) caughtUp.1
  have before := caughtUp.2 sameBefore
  cases moves_of_step step with
  | others party choice theirs taken =>
      obtain ⟨act, next, rfl⟩ := State.step_eq_some_iff.mp taken
      rw [State.view_perform Pc.GotNone WaitSite.gotNone_resume, if_neg (Ne.symm theirs)] at none
      exact before none
  | read thread block ours taken =>
      subst ours
      obtain ⟨act, next, rfl⟩ := State.step_eq_some_iff.mp taken
      obtain ⟨_, rfl⟩ := next_invoke next
      rw [State.perform_pc_self] at none
      cases none
  | run thread spurious ours taken =>
      subst ours
      obtain ⟨act, next, rfl⟩ := State.step_eq_some_iff.mp taken
      rw [State.perform_pc_self] at none
      rcases calling.reading with idle | ⟨lastSeenSeq, within⟩
      · rw [idle] at next
        obtain ⟨operation, is, _⟩ := next_idle next
        cases spurious <;> cases is
      · obtain ⟨_, seen⟩ := (next_takes next).read_none within none
        have current := currentSequence_eq_numberAfter (System.reachable_core reachable)
        change source.own.lastReadSequence.toNat = _
        rw [← calling.seen _ seen, current, sameBefore]
  | store thread sequence ours holds unstored =>
      subst ours
      change source.core.pc thread = _ at none
      rw [holds] at none
      cases none
  | drop thread ours stored taken =>
      subst ours
      obtain ⟨act, next, rfl⟩ := State.step_eq_some_iff.mp taken
      rw [State.perform_pc_self] at none
      rcases next_drop next with ⟨sequence, _, rfl⟩ | ⟨_, rfl⟩ <;> cases none

/-- An instance with one caller ends with the last message. -/
theorem endsWithLast (caller : ι) (targetRead consumers : BitVec 16) :
    EndsWithLast (system (· = caller) targetRead consumers) Blocks (fun _ _ _ => True)
      (fun state => (state.core.pc caller).GotNone)
      (fun state => History.admitted (· = caller) state.core.log) := by
  intro state reachable running published choices target run meet last none
  have number := currentSequence_eq_numberAfter (System.reachable_core reachable)
  obtain ⟨calling, caughtUp⟩ : Calling caller target ∧ CaughtUp caller state.core.publishes target := by
    refine System.inv_of_exec
      (fun target => Calling caller target ∧ CaughtUp caller state.core.publishes target)
      (fun before both step ok => ⟨both.1.step step ok.1, both.2.step before both.1 step⟩)
      reachable.reachable ?_ run meet
    refine ⟨calling_of_blocks reachable, Nat.le_refl _, fun _ none => ?_⟩
    rw [(calling_of_blocks reachable).stopped none] at running
    cases running
  have version := caughtUp.2 last none
  rw [← number] at version
  have same : target.own.lastReadSequence = state.core.msg.currentSequence :=
    BitVec.eq_of_toNat_eq version
  rcases calling.stored with zero | mem
  · exact absurd (same.symm.trans zero)
      (currentSequence_ne_zero (System.reachable_core reachable) published)
  · exact same ▸ mem

end Steps

end ReadSync

end RsIpc
