import RsIpc.SharedMessage.Sequencing

/-!
# The end of the stream

A reader is told that the stream has ended when it finds the memory stopped at
the number it has already seen.  Writers look at the stopped flag on entry and
in their wait loops, and not again before their exchange; a writer that is past
its last look when the reader is told can still publish.
-/

namespace RsIpc

open Transition

universe u

variable {ι : Type u} [DecidableEq ι] {targetRead consumers : BitVec 16}

def WaitSite.committed : WaitSite → Bool
  | .backpressure _ | .drain _ => true
  | .reader _ _ => false

def NotifySite.committed : NotifySite → Bool
  | .kick _ _ => true
  | _ => false

def UpdateSite.committed : UpdateSite → Bool
  | .resetConsumed _ => true
  | _ => false

/-- The writer is between a look at the stopped flag that found it down and its
exchange, and it may publish without another look. -/
def Pc.committed : Pc → Bool
  | .lock _ | .loadSequence _ | .loadReaders _ _ => true
  | .firstTicket _ readerState => !decide (readerState.dataConsumed < readerState.getTargetConsumed)
  | .nextTicket _ | .nextReaders _ _ | .setWriting _ => true
  | .drainTicket _ | .drainReaders _ _ => true
  | .copy _ _ | .writeGuard | .loadPacked _ | .exchange _ _ => true
  | .wait site _ _ | .parked site _ => site.committed
  | .notify site | .wake site => site.committed
  | .update site | .cas site _ => site.committed
  | _ => false

/-- The next load of this call of `read` makes it report the end of the stream. -/
def Pc.seesEnd (msg : SharedMessage) : Pc → Bool
  | .readState lastSeenSeq _ _ => msg.isStopped && msg.currentSequence == lastSeenSeq
  | _ => false

/-- The end of the stream is reported only when no writer is committed. -/
def EndsQuietly : StepCondition (State ι) (ι × Choice) :=
  fun source label _ => (source.pc label.1).seesEnd source.msg = true →
    ∀ party, (source.pc party).committed = false

omit [DecidableEq ι] in
instance [Fintype ι] (source : State ι) (label : ι × Choice) (target : State ι) :
    Decidable (EndsQuietly source label target) :=
  inferInstanceAs (Decidable ((source.pc label.1).seesEnd source.msg = true →
    ∀ party, (source.pc party).committed = false))

/-! ## Committing -/

theorem WaitSite.committed_resume (site : WaitSite) (ticket : Nat) :
    site.resume.committed = (Pc.parked site ticket).committed := by
  cases site <;> rfl

theorem Pc.Updating.committed {pc : Pc} {site : UpdateSite} (at_ : pc.Updating site) :
    pc.committed = site.committed := by
  rcases at_ with rfl | ⟨packed, rfl⟩ <;> rfl

/-- A writer commits only by a look at the flag that finds it down. -/
theorem Takes.committed {msg : SharedMessage} {pc : Pc} {act : Act} (takes : Takes msg pc act)
    (stopped : msg.isStopped = true) (committed : act.pc.committed = true) :
    pc.committed = true := by
  cases takes with
  | enter writer running => exact absurd (stopped.symm.trans running) (by decide)
  | kick writer ticket running => exact absurd (stopped.symm.trans running) (by decide)
  | drainWait writer ticket running => exact absurd (stopped.symm.trans running) (by decide)
  | firstPass writer readerState consumed => simpa [Pc.committed] using consumed
  | loadReaders writer currentSeq target positive => rfl
  | waitReturns site ticket spins changed | wakeUp site ticket => cases site <;> exact committed
  | wake site => cases site <;> first | rfl | cases committed
  | unchanged size at_ same => exact at_.committed
  | compute site at_ => exact at_.committed.trans committed
  | update site policy run =>
      cases site with
      | resetConsumed size => rfl
      | release sequence =>
          simp only [UpdateSite.after] at committed
          split at committed <;> cases committed
      | _ => cases committed
  | invoke operation => cases operation <;> cases committed
  | _ => first | exact committed | cases committed

/-- Once the memory is stopped and no writer is committed, none ever is. -/
theorem quiet_of_step {source target : State ι} {party : ι} {choice : Choice}
    (step : source.step (party, choice) = some target) (stopped : source.msg.isStopped = true)
    (quiet : ∀ other, (source.pc other).committed = false) (other : ι) :
    (target.pc other).committed = false := by
  obtain ⟨act, next, rfl⟩ := State.step_eq_some_iff.mp step
  rw [State.view_perform Pc.committed WaitSite.committed_resume]
  split
  · cases committed : act.pc.committed with
    | false => rfl
    | true =>
        have before := (next_takes next).committed stopped committed
        exact absurd (before.symm.trans (quiet party)) (by decide)
  · exact quiet other

/-! ## After the end -/

/-- Where a party must stand to record an event. -/
def Event.At (msg : SharedMessage) (pc : Pc) : Event → Prop
  | .published _ => pc.committed = true
  | .ended _ => msg.isStopped = true ∧ pc.seesEnd msg = true
  | _ => True

theorem log_of_step {source target : State ι} {party : ι} {choice : Choice}
    (step : source.step (party, choice) = some target) :
    target.log = source.log ∨ ∃ event, target.log = source.log ++ [(party, event)] ∧
      event.At source.msg (source.pc party) := by
  obtain ⟨act, next, rfl⟩ := State.step_eq_some_iff.mp step
  rw [State.perform_log]
  cases next_record next with
  | silent event quiet =>
      rw [event]
      exact .inl (List.append_nil _)
  | published size at_ is =>
      subst is
      exact .inr ⟨_, rfl, congrArg Pc.committed at_⟩
  | ended lastSeenSeq block ticket at_ stopped same is =>
      subst is
      exact .inr ⟨_, rfl, stopped, by simp [at_, Pc.seesEnd, stopped, same]⟩
  | admitted lastSeenSeq block sequence at_ down same is =>
      subst is
      exact .inr ⟨_, rfl, trivial⟩
  | released sequence at_ effect event | joined at_ effect event next | left at_ effect event next =>
      rw [event]
      exact .inr ⟨_, rfl, trivial⟩

omit [DecidableEq ι] in
/-- Where a longer history is cut at an event, that event is its last, or the
shorter history is cut there too. -/
theorem split_concat {log before after : List (ι × Event)} {last entry : ι × Event}
    (split : log ++ [last] = before ++ entry :: after) :
    after = [] ∨ ∃ init, after = init ++ [last] ∧ log = before ++ entry :: init := by
  rcases List.eq_nil_or_concat after with nil | ⟨init, final, rfl⟩
  · exact .inl nil
  · right
    rw [List.concat_eq_append, ← List.cons_append, ← List.append_assoc] at split
    obtain ⟨logs, finals⟩ := List.append_inj' split rfl
    cases finals
    exact ⟨init, List.concat_eq_append, logs⟩

/-- The end of the stream has been final so far. -/
structure Final (state : State ι) : Prop where
  quiet : ∀ party sequence, (party, .ended sequence) ∈ state.log →
    state.msg.isStopped = true ∧ ∀ other, (state.pc other).committed = false
  silent : ∀ before party sequence after, state.log = before ++ (party, .ended sequence) :: after →
    History.published after = []

theorem Final.step {source target : State ι} {party : ι} {choice : Choice} (final : Final source)
    (step : source.step (party, choice) = some target)
    (ends : EndsQuietly source (party, choice) target) : Final target := by
  have later : source.msg.isStopped = true → (∀ other, (source.pc other).committed = false) →
      target.msg.isStopped = true ∧ ∀ other, (target.pc other).committed = false :=
    fun stopped quiet => ⟨isStopped_of_step step stopped, quiet_of_step step stopped quiet⟩
  rcases log_of_step step with same | ⟨event, appended, at_⟩
  · constructor
    · intro reader sequence mem
      rw [same] at mem
      obtain ⟨stopped, quiet⟩ := final.quiet reader sequence mem
      exact later stopped quiet
    · intro before reader sequence after split
      exact final.silent before reader sequence after (same.symm.trans split)
  · constructor
    · intro reader sequence mem
      rw [appended, List.mem_append, List.mem_singleton] at mem
      rcases mem with old | new
      · obtain ⟨stopped, quiet⟩ := final.quiet reader sequence old
        exact later stopped quiet
      · cases new
        exact later at_.1 (ends at_.2)
    · intro before reader sequence after split
      rcases split_concat (appended.symm.trans split) with rfl | ⟨init, rfl, old⟩
      · rfl
      · rw [History.published_append, final.silent before reader sequence init old]
        obtain ⟨_, quiet⟩ := final.quiet reader sequence (by simp [old])
        cases event with
        | published message =>
            exact absurd (Eq.trans (Eq.symm at_) (quiet party)) (by decide)
        | _ => rfl

/-- If the end of the stream is reported only when no writer is committed,
nothing is published after it was reported. -/
theorem nothing_published_after_end {state : State ι}
    (reachable : (zeroed ι).ReachableVia EndsQuietly state) {before after : List (ι × Event)}
    {reader : ι} {sequence : BitVec 64}
    (split : state.log = before ++ (reader, .ended sequence) :: after) :
    History.published after = [] := by
  have final : Final state := by
    refine reachable.invariant Final ?_ ?_
    · rintro _ ⟨capacity, rfl⟩
      constructor
      · intro party sequence mem
        cases mem
      · intro before party sequence after split
        exact absurd split.symm (by simp)
    · rintro source ⟨party, choice⟩ target _ final step ends
      exact final.step step ends
  exact final.silent before reader sequence after split

/-- A message is read, the memory is stopped, the reader is told so, and a writer
tries again. -/
def endedStream : State (Fin 2) :=
  (zeroed (Fin 2)).finish (State.fresh (Fin 2) 4 0 0)
    (calls 0 (.writeSlice [7]) 16 ++ calls 1 (.read 0 true) 5 ++ (1, .drop) :: advances 1 5 ++
      calls 1 .stop 6 ++ calls 1 (.read 1 true) 2 ++ calls 0 (.writeSlice [8]) 2)
    (by decide +kernel)

theorem endedStream_stays_ended :
    endedStream.log.drop 3 = [(1, .ended 1)] ∧ History.published (endedStream.log.drop 4) = [] :=
  ⟨by decide +kernel,
    nothing_published_after_end (System.reachableVia_finish (initial_fresh (Fin 2) 4 0 0) _
      (by decide +kernel) : (zeroed (Fin 2)).ReachableVia EndsQuietly endedStream)
      (by decide +kernel : endedStream.log = endedStream.log.take 3 ++
        ((1 : Fin 2), .ended 1) :: endedStream.log.drop 4)⟩

/-- A writer holds a guard when the memory is stopped, and publishes it after a
reader was told that the stream has ended. -/
def lateWrite : State (Fin 3) :=
  (zeroed (Fin 3)).finish (State.fresh (Fin 3) 1 0 0)
    (calls 0 .write 7 ++ calls 1 .stop 6 ++ calls 2 (.read 0 true) 2 ++
      (0, .publish 1) :: advances 0 6) (by decide +kernel)

theorem lateWrite_reports_success :
    (zeroed (Fin 3)).Reachable lateWrite ∧
      lateWrite.log = [(2, .ended 0), (0, .published ⟨1, 1, [0]⟩)] ∧
      lateWrite.pc 0 = .done (.sequence 1) :=
  ⟨System.reachable_finish (initial_fresh (Fin 3) 1 0 0) _, by decide +kernel, by decide +kernel⟩

end RsIpc
