import RsIpc.Protocol.Count
import RsIpc.SharedMessage.Phase

/-!
# Readers exclude writers

The readers word counts the outstanding registrations modulo `2 ^ 16`.  As long
as at most 65535 of them are outstanding at a time, the program runs the
handshake, and its safety carries over.
-/

namespace RsIpc

open Protocol Protocol.Handshake Transition

universe u

variable {ι : Type u}

/-- The handshake seen in a global state. -/
def State.handshake (state : State ι) : Config ι where
  locked := state.msg.writerMutex
  flag := state.msg.getSequenceState.writingInProgress
  phase party := (state.pc party).phase

section Registrations

variable [Fintype ι]

/-- The registrations made and not yet taken back, verified or not. -/
def State.registrations (state : State ι) : Nat :=
  count fun party => (state.pc party).phase.Reads

/-- At most 65535 registrations are outstanding after the step. -/
def Bounded : StepCondition (State ι) (ι × Choice) :=
  fun _ _ target => target.registrations ≤ 65535

theorem State.registrations_eq_zero_iff (state : State ι) :
    state.registrations = 0 ↔ state.handshake.Drained :=
  count_eq_zero_iff

end Registrations

/-! ## What a move does to the words -/

/-- A registration as a number. -/
def registration (phase : Phase) : Nat :=
  if phase.Reads then 1 else 0

/-- The active count follows the registration of the party that moves. -/
theorem Move.activeReaders {msg : SharedMessage} {phase phase' : Phase} {effect : Effect}
    (move : Move msg phase effect phase') :
    (effect.apply msg).getReaderState.activeReaders + BitVec.ofNat 16 (registration phase) =
      msg.getReaderState.activeReaders + BitVec.ofNat 16 (registration phase') := by
  rw [Effect.getReaderState_apply]
  cases move <;> subst_vars <;> try rfl
  case addReader =>
    simp only [Mutator.run]
    split <;> rfl
  case removeReader =>
    simp only [Mutator.run]
    split <;> rfl
  case register => simp [Mutator.run, registration, Phase.Reads]
  case unregister => simpa [Mutator.run, registration, Phase.Reads] using BitVec.sub_add_cancel _ _
  case release => simpa [Mutator.run, registration, Phase.Reads] using BitVec.sub_add_cancel _ _

/-- The move as a change of the handshake. -/
theorem Move.change {msg : SharedMessage} {phase phase' : Phase} {effect : Effect} {drained : Prop}
    (move : Move msg phase effect phase')
    (empty : msg.getReaderState.activeReaders = 0 → drained) :
    Change drained msg.writerMutex msg.getSequenceState.writingInProgress phase
      (effect.apply msg).writerMutex (effect.apply msg).getSequenceState.writingInProgress
      phase' := by
  rw [Effect.writerMutex_apply, Effect.getSequenceState_apply]
  cases move with
  | observe same is | notify which same is | wake which same is | setStopped same is =>
      subst is
      exact .stay rfl rfl same
  | lock free was is now =>
      subst is
      exact .acquire free was rfl rfl now
  | setWriting was is now =>
      subst is
      exact .raise was rfl rfl now
  | drained none was is now =>
      subst is
      exact .drain (empty none) was rfl rfl now
  | clearWriting was is now =>
      subst is
      exact .lower was rfl rfl now
  | storeByte index byte was is now | storeSize size was is now =>
      subst is
      exact .stay rfl rfl (now.trans was.symm)
  | resetConsumed was is now | setTarget count was is now | addReader was is now
  | removeReader was is now =>
      subst is
      exact .stay rfl rfl (now.trans was.symm)
  | publish was is now =>
      subst is
      exact .publish was rfl rfl now
  | abandon was is now =>
      subst is
      exact .abandon was rfl rfl now
  | unlock was is now =>
      subst is
      exact .release was rfl rfl now
  | register was is now =>
      subst is
      exact .register was rfl rfl now
  | granted down was is now =>
      subst is
      exact .granted down was rfl rfl now
  | unregister was is now =>
      subst is
      exact .unregister was rfl rfl now
  | release was is now =>
      subst is
      exact .leave was rfl rfl now

/-! ## Runs -/

section Runs

variable [DecidableEq ι] {targetRead consumers : BitVec 16}

/-- The phase of every party after a step. -/
theorem State.phase_perform (state : State ι) (party other : ι) (act : Act) :
    ((state.perform party act).pc other).phase =
      if other = party then act.pc.phase else (state.pc other).phase :=
  state.view_perform Pc.phase (fun site _ => site.phase_resume) party other act

/-- A step of the program is a step of the handshake. -/
theorem handshake_step {source target : State ι} {party : ι} {choice : Choice} {drained : Prop}
    (empty : source.msg.getReaderState.activeReaders = 0 → drained)
    (step : source.step (party, choice) = some target) :
    Handshake.Step drained party source.handshake target.handshake := by
  obtain ⟨act, next, rfl⟩ := State.step_eq_some_iff.mp step
  constructor
  · have change := (next_move next).change empty
    rw [← State.perform_pc_self source party act] at change
    exact change
  · intro other ne
    exact (source.phase_perform party other act).trans (if_neg ne)

/-- In every reachable state the writer mutex has one holder if it is locked, and
whoever raised the flag sees it raised. -/
theorem owned_of_reachable {state : State ι}
    (reachable : (system ι targetRead consumers).Reachable state) : Owned state.handshake := by
  refine reachable.invariant (fun state => Owned state.handshake) ?_ ?_
  · rintro _ ⟨capacity, rfl⟩
    exact .start rfl fun _ => rfl
  · rintro source ⟨party, choice⟩ target _ owned step _
    exact owned.step (handshake_step (fun _ => trivial) step)

variable [Fintype ι]

theorem State.registrations_perform (state : State ι) (party : ι) (act : Act) :
    (state.perform party act).registrations + registration (state.pc party).phase =
      state.registrations + registration act.pc.phase := by
  have self := congrArg registration (state.phase_perform party party act)
  rw [if_pos rfl] at self
  rw [← self]
  have others : ∀ other, other ≠ party → ((state.pc other).phase.Reads ↔
      ((state.perform party act).pc other).phase.Reads) := by
    intro other ne
    rw [state.phase_perform, if_neg ne]
  exact count_change others

omit [DecidableEq ι] in
@[simp]
theorem State.registrations_fresh (capacity : Nat) :
    (State.fresh ι capacity targetRead consumers).registrations = 0 :=
  count_eq_zero_iff.mpr fun party => by simp [Pc.phase, Phase.Reads]

/-- `active_readers` is the number of outstanding registrations modulo `2 ^ 16`. -/
theorem activeReaders_eq_registrations {state : State ι}
    (reachable : (system ι targetRead consumers).Reachable state) :
    state.msg.getReaderState.activeReaders = BitVec.ofNat 16 state.registrations := by
  refine reachable.invariant
    (fun state => state.msg.getReaderState.activeReaders = BitVec.ofNat 16 state.registrations)
    ?_ ?_
  · rintro _ ⟨capacity, rfl⟩
    simp
  · rintro source ⟨party, choice⟩ target _ counted step _
    obtain ⟨act, next, rfl⟩ := State.step_eq_some_iff.mp step
    have words := (next_move next).activeReaders
    have parties := congrArg (BitVec.ofNat 16) (source.registrations_perform party act)
    rw [BitVec.ofNat_add, BitVec.ofNat_add, ← counted] at parties
    rw [State.perform_msg]
    exact (BitVec.add_left_inj _).mp (words.trans parties.symm)

/-- Under the bound, a reader count of zero means that no registration is
outstanding. -/
theorem drained_of_activeReaders_eq_zero {state : State ι}
    (reachable : (system ι targetRead consumers).Reachable state)
    (bounded : state.registrations ≤ 65535)
    (none : state.msg.getReaderState.activeReaders = 0) : state.handshake.Drained := by
  rw [← state.registrations_eq_zero_iff]
  have counted := activeReaders_eq_registrations reachable
  rw [none] at counted
  have zero : 0 = state.registrations % 2 ^ 16 := congrArg BitVec.toNat counted
  omega

theorem registrations_le_of_reachableVia {state : State ι}
    (reachable : (system ι targetRead consumers).ReachableVia Bounded state) :
    state.registrations ≤ 65535 := by
  cases reachable with
  | initial start =>
      obtain ⟨capacity, rfl⟩ := start
      rw [State.registrations_fresh]
      exact Nat.zero_le _
  | step _ _ bounded => exact bounded

/-- The handshake is safe in every state of a bounded run. -/
theorem excluded_of_bounded {state : State ι}
    (reachable : (system ι targetRead consumers).ReachableVia Bounded state) :
    Excluded state.handshake := by
  refine reachable.invariant (fun state => Excluded state.handshake) ?_ ?_
  · rintro _ ⟨capacity, rfl⟩
    exact Excluded.start fun _ => rfl
  · rintro source ⟨party, choice⟩ target before excluded step _
    have drained := drained_of_activeReaders_eq_zero before.reachable
      (registrations_le_of_reachableVia before)
    exact excluded.step (owned_of_reachable before.reachable) (handshake_step drained step)

/-! ## Exclusion and stability -/

/-- Only a party in its writing phase changes the buffer, its published size or
the sequence number. -/
theorem Move.writing_of_changes {msg : SharedMessage} {phase phase' : Phase} {effect : Effect}
    (move : Move msg phase effect phase') :
    phase = .writing ∨ ((effect.apply msg).data = msg.data ∧
      (effect.apply msg).dataSize = msg.dataSize ∧
      (effect.apply msg).currentSequence = msg.currentSequence) := by
  simp only [SharedMessage.currentSequence, Effect.data_apply, Effect.dataSize_apply,
    Effect.getSequenceState_apply]
  cases move with
  | storeByte index byte was | storeSize size was | publish was => exact .inl was
  | _ =>
      subst_vars
      exact .inr ⟨rfl, rfl, rfl⟩

/-- While a read guard is outstanding, no step of any party changes what it reads. -/
theorem stable_of_admitted {source target : State ι} {party reader : ι} {choice : Choice}
    (reachable : (system ι targetRead consumers).ReachableVia Bounded source)
    (admitted : (source.pc reader).phase = .admitted)
    (step : source.step (party, choice) = some target) :
    target.msg.data = source.msg.data ∧ target.msg.dataSize = source.msg.dataSize ∧
      target.msg.currentSequence = source.msg.currentSequence := by
  obtain ⟨act, next, rfl⟩ := State.step_eq_some_iff.mp step
  rcases (next_move next).writing_of_changes with writing | same
  · exact absurd admitted (excluded_of_bounded reachable _ writing reader)
  · exact same

/-- Readers and writers exclude one another: at most one party is in its writing
phase, no read guard is outstanding then, and while a read guard is outstanding
no step changes the buffer, the published size or the sequence number. -/
theorem writers_exclude_and_guards_are_stable {state : State ι}
    (reachable : (zeroed ι).ReachableVia Bounded state) :
    (∀ first second, (state.pc first).phase = .writing → (state.pc second).phase = .writing →
      first = second) ∧
    (∀ writer reader, (state.pc writer).phase = .writing →
      (state.pc reader).phase ≠ .admitted) ∧
    (∀ reader label target, (state.pc reader).phase = .admitted →
      state.step label = some target →
        target.msg.data = state.msg.data ∧ target.msg.dataSize = state.msg.dataSize ∧
          target.msg.currentSequence = state.msg.currentSequence) := by
  have owned := owned_of_reachable reachable.reachable
  refine ⟨?_, ?_, ?_⟩
  · intro first second firstWrites secondWrites
    exact owned.unique (.inr (.inr firstWrites)) (.inr (.inr secondWrites))
  · intro writer reader writes
    exact excluded_of_bounded reachable writer writes reader
  · rintro reader ⟨party, choice⟩ target admitted step
    exact stable_of_admitted reachable admitted step

end Runs

instance [Fintype ι] (source : State ι) (label : ι × Choice) (target : State ι) :
    Decidable (Bounded source label target) :=
  inferInstanceAs (Decidable (target.registrations ≤ 65535))

/-- A message is published and a reader holds a guard for it. -/
def guarded : State (Fin 2) :=
  (zeroed (Fin 2)).finish (State.fresh (Fin 2) 4 0 0)
    (calls 0 (.writeSlice [7]) 16 ++ calls 1 (.read 0 true) 5) (by decide +kernel)

theorem guarded_is_stable :
    (guarded.pc 1).phase = .admitted ∧
      ∀ label target, guarded.step label = some target → target.msg.data = guarded.msg.data := by
  have admitted : (guarded.pc 1).phase = .admitted := by decide +kernel
  have stable := (writers_exclude_and_guards_are_stable (System.reachableVia_finish
    (initial_fresh (Fin 2) 4 0 0) _ (by decide +kernel) : (zeroed (Fin 2)).ReachableVia Bounded guarded)).2.2
  exact ⟨admitted, fun label target step => (stable 1 label target admitted step).1⟩

end RsIpc
