import RsIpc.SharedMessage.Exclusion

/-!
# Writes that end without a publish

The flag is raised in `start_write` and lowered by `publish_write` and by the
give-up branch of `start_write`.  A writer that leaves its writing phase in any
other way drops the mutex and leaves the flag up.
-/

namespace RsIpc

open Protocol Protocol.Handshake Transition

universe u

variable {ι : Type u} [DecidableEq ι] {targetRead consumers : BitVec 16}

/-- The step ends a write without a publish: the write guard is dropped, `publish`
refuses the size, or the panic of `write_slice` unwinds. -/
def Abandons : StepCondition (State ι) (ι × Choice) :=
  fun source label target =>
    (source.pc label.1).phase = .writing ∧ (target.pc label.1).phase = .outside

/-- The step ends no write without a publish. -/
def Publishes : StepCondition (State ι) (ι × Choice) :=
  fun source label target => ¬ Abandons source label target

/-- If the flag is up, some party holds the writer mutex. -/
def State.FlagHasHolder (state : State ι) : Prop :=
  state.msg.getSequenceState.writingInProgress = true → ∃ party, (state.pc party).phase.Holds

/-- In a run that abandons no write, the flag has been raised by a party that is
still between its raise and its lowering of it. -/
theorem flag_raised_of_publishes {state : State ι}
    (reachable : (system ι targetRead consumers).ReachableVia Publishes state)
    (flag : state.msg.getSequenceState.writingInProgress = true) :
    ∃ party, (state.pc party).phase.Raised := by
  refine reachable.invariant (fun state => state.handshake.flag = true →
    ∃ party, (state.handshake.phase party).Raised) ?_ ?_ flag
  · rintro _ ⟨capacity, rfl⟩ up
    simp [State.handshake] at up
  · rintro source ⟨party, choice⟩ target _ owned step kept up
    have handshake := handshake_step (fun _ => trivial) step
    exact handshake.flag_owned kept owned up

/-- An abandoned write leaves the flag up and the mutex free. -/
theorem not_flagHasHolder_of_abandons {source target : State ι} {label : ι × Choice}
    (reachable : (system ι targetRead consumers).Reachable source)
    (step : source.step label = some target) (abandons : Abandons source label target) :
    ¬ target.FlagHasHolder := by
  obtain ⟨party, choice⟩ := label
  have handshake := handshake_step (fun _ => trivial) step
  obtain ⟨flag, free⟩ :=
    (owned_of_reachable reachable).orphan_step handshake abandons.1 abandons.2
  intro holder
  obtain ⟨other, holds⟩ := holder flag
  have locked := (owned_of_reachable (.step reachable step trivial)).locked holds
  exact absurd (locked.symm.trans free) (by decide)

/-- Along a run from fresh memory the flag always has a holder of the mutex if
and only if no step of the run ends a write without a publish. -/
theorem flag_has_holder_iff_no_abandon (capacity : Nat) (labels : List (ι × Choice)) :
    (zeroed ι).StatesMeet State.FlagHasHolder (State.fresh ι capacity 0 0) labels ↔
      (zeroed ι).StepsMeet Publishes (State.fresh ι capacity 0 0) labels := by
  constructor
  · refine System.stepsMeet_of_statesMeet ?_ (.initial (initial_fresh ι capacity 0 0))
    intro source label target reachable step broken
    exact not_flagHasHolder_of_abandons reachable.reachable step (not_not.mp broken)
  · refine System.statesMeet_of_reachableVia ?_ (.initial (initial_fresh ι capacity 0 0))
    intro state reachable flag
    obtain ⟨party, raised⟩ := flag_raised_of_publishes reachable flag
    exact ⟨party, raised.holds⟩

/-- A write guard is obtained on fresh memory and dropped. -/
def droppedGuard : State (Fin 1) :=
  (zeroed (Fin 1)).finish (State.fresh (Fin 1) 1 0 0) (calls 0 .write 7 ++ [(0, .drop)])
    (by decide +kernel)

/-- After the drop the flag is up and nobody holds the mutex. -/
theorem dropped_guard_leaves_flag :
    (zeroed (Fin 1)).Reachable droppedGuard ∧
      droppedGuard.msg.getSequenceState.writingInProgress = true ∧
        ¬ ∃ party, (droppedGuard.pc party).phase.Holds :=
  ⟨System.reachable_finish (initial_fresh (Fin 1) 1 0 0) _, by decide +kernel,
    by decide +kernel⟩

end RsIpc
