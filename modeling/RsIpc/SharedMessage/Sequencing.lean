import Mathlib.Data.Fintype.Basic
import RsIpc.Protocol.Recorded
import RsIpc.SharedMessage.Calls

/-!
# Sequence numbers as writers and readers see them

A publish returns the number that its exchange gave it, nothing else moves the
number, and a reader that passes on what its last guard carried is handed larger
and larger numbers until the counter wraps.
-/

namespace RsIpc

open Protocol Transition SequenceState

universe u

variable {ι : Type u} [DecidableEq ι] {targetRead consumers : BitVec 16}

/-! ## What a publish returns -/

theorem History.publishedBy_perform_of_ne (state : State ι) {party other : ι} (ne : other ≠ party)
    (act : Act) : publishedBy other (state.perform party act).log = publishedBy other state.log := by
  rw [State.perform_log, publishedBy_append]
  cases act.event with
  | none => exact List.append_nil _
  | some event =>
      cases event with
      | published message => simp [publishedBy, ne.symm]
      | _ => exact List.append_nil _

/-- The number that a call is going to return is the number of the message that
its party published last. -/
theorem publishedBy_of_returning {state : State ι}
    (reachable : (system ι targetRead consumers).Reachable state) {party : ι}
    {sequence : BitVec 64} (returning : (state.pc party).returning = some sequence) :
    (History.publishedBy party state.log).getLast?.map Message.sequence = some sequence := by
  refine reachable.invariant (fun state => ∀ party sequence,
    (state.pc party).returning = some sequence →
      (History.publishedBy party state.log).getLast?.map Message.sequence = some sequence)
    ?_ ?_ party sequence returning
  · rintro _ ⟨capacity, rfl⟩ party sequence returning
    cases returning
  · rintro source ⟨party, choice⟩ target _ last step _ other sequence returning
    obtain ⟨act, next, rfl⟩ := State.step_eq_some_iff.mp step
    by_cases here : other = party
    · subst here
      rw [State.perform_pc_self] at returning
      rcases (next_takes next).returning returning with ⟨before, silent⟩ | ⟨size, event, number⟩
      · rw [State.perform_log, silent]
        simpa using last other sequence before
      · rw [State.perform_log, event, History.publishedBy_append]
        simp [History.publishedBy, number]
    · rw [State.view_perform Pc.returning WaitSite.returning_resume, if_neg here] at returning
      rw [History.publishedBy_perform_of_ne source here]
      exact last other sequence returning

/-! ## Stopping -/

/-- No operation clears the stopped flag. -/
theorem isStopped_of_step {source target : State ι} {label : ι × Choice}
    (step : source.step label = some target) (stopped : source.msg.isStopped = true) :
    target.msg.isStopped = true := by
  obtain ⟨act, next, rfl⟩ := State.step_eq_some_iff.mp step
  rw [State.perform_msg, SharedMessage.isStopped, Effect.getSequenceState_apply]
  split
  · exact stopped
  · exact stopped
  · rfl
  · exact stopped
  · exact stopped

theorem isStopped_of_exec {source target : State ι} {labels : List (ι × Choice)}
    (run : (system ι targetRead consumers).exec source labels = some target)
    (stopped : source.msg.isStopped = true) : target.msg.isStopped = true := by
  induction labels generalizing source with
  | nil =>
      cases run
      exact stopped
  | cons label labels ih =>
      obtain ⟨middle, step, rest⟩ := Option.bind_eq_some_iff.mp run
      exact ih rest (isStopped_of_step step stopped)

/-! ## One reader -/

variable (reader : ι → Prop) [DecidablePred reader]

/-- The number of the last guard that the reader obtained, zero at first. -/
def History.lastAdmitted (log : List (ι × Event)) : BitVec 64 :=
  (History.admitted reader log).getLastD 0

/-- The reader calls `read` one call at a time, with the number of its last guard.
Its guards may be held by several parties. -/
def Follows : StepCondition (State ι) (ι × Choice) :=
  fun source label _ => ∀ lastSeenSeq ∈ label.2.lastSeen, reader label.1 →
    lastSeenSeq = History.lastAdmitted reader source.log ∧
      ∀ other, reader other → (source.pc other).lastSeen = none

omit [DecidableEq ι] in
instance [Fintype ι] (source : State ι) (label : ι × Choice) (target : State ι) :
    Decidable (Follows reader source label target) :=
  Option.decidableForallMem label.2.lastSeen

/-- A step either admits the reader, or it leaves its guards' numbers alone. -/
theorem admitStep_or_same {source : State ι} {party : ι} {choice : Choice} {act : Act}
    (next : next source.msg choice (source.pc party) = some act) :
    (∃ lastSeenSeq block, reader party ∧
        source.pc party = .verify lastSeenSeq block source.msg.currentSequence ∧
        act = ⟨.observe, .readGuard source.msg.currentSequence,
          some (.admitted source.msg.currentSequence)⟩) ∨
      History.admitted reader (source.perform party act).log =
        History.admitted reader source.log := by
  rw [State.perform_log, History.admitted_append]
  cases next_record next with
  | admitted lastSeenSeq block sequence at_ down same is =>
      subst same is
      by_cases ours : reader party
      · exact .inl ⟨lastSeenSeq, block, ours, at_, rfl⟩
      · right
        simp [History.admitted, ours]
  | silent event quiet =>
      rw [event]
      exact .inr (List.append_nil _)
  | published size at_ is | ended lastSeenSeq block ticket at_ stopped same is =>
      subst is
      exact .inr (List.append_nil _)
  | released sequence at_ effect event | joined at_ effect event next
  | left at_ effect event next =>
      rw [event]
      exact .inr (List.append_nil _)

/-- The number of a guard is that of a publish, or zero. -/
theorem admitted_le_publishes {state : State ι}
    (reachable : (system ι targetRead consumers).Reachable state) {sequence : BitVec 64}
    (admitted : sequence ∈ History.admitted reader state.log) :
    sequence.toNat ≤ state.publishes := by
  refine reachable.invariant (fun state => ∀ sequence ∈ History.admitted reader state.log,
    sequence.toNat ≤ state.publishes) ?_ ?_ sequence admitted
  · rintro _ ⟨capacity, rfl⟩ sequence admitted
    cases admitted
  · rintro source ⟨party, choice⟩ target before numbered step _ sequence admitted
    have grows := publishes_le_of_step step
    obtain ⟨act, next, rfl⟩ := State.step_eq_some_iff.mp step
    rcases admitStep_or_same reader next with ⟨_, _, ours, _, rfl⟩ | same
    · rw [State.perform_log, History.admitted_append, List.mem_append] at admitted
      rcases admitted with old | now
      · exact (numbered sequence old).trans grows
      · simp only [Option.toList_some, List.map_cons, List.map_nil, History.admitted,
          List.filterMap_cons, ours, if_true, List.filterMap_nil, List.mem_singleton] at now
        subst now
        rw [currentSequence_eq_numberAfter before]
        exact (numberAfter_le _).trans grows
    · rw [same] at admitted
      exact (numbered sequence admitted).trans grows

/-- Until the counter wraps, the number of the last guard is not above the current one. -/
theorem lastAdmitted_le_currentSequence {state : State ι}
    (reachable : (system ι targetRead consumers).Reachable state) (few : state.publishes ≤ period) :
    History.lastAdmitted reader state.log ≤ state.msg.currentSequence := by
  have current := currentSequence_eq_numberAfter reachable
  rw [numberAfter_of_lt few] at current
  change (History.lastAdmitted reader state.log).toNat ≤ _
  rw [current]
  unfold History.lastAdmitted
  rcases List.eq_nil_or_concat (History.admitted reader state.log) with nil | ⟨init, last, concat⟩
  · rw [nil]
    exact Nat.zero_le _
  · have numbered : last.toNat ≤ state.publishes :=
      admitted_le_publishes reader reachable (by simp [concat])
    rw [concat]
    simpa using numbered

/-- What a reader that follows its guards keeps. -/
structure Following (state : State ι) : Prop where
  single : ∀ {first second}, reader first → reader second →
    (state.pc first).lastSeen ≠ none → (state.pc second).lastSeen ≠ none → first = second
  last : ∀ {party lastSeenSeq}, reader party → (state.pc party).lastSeen = some lastSeenSeq →
    lastSeenSeq = History.lastAdmitted reader state.log
  fresh : ∀ party, (state.pc party).Fresh
  numbered : ∀ sequence ∈ History.admitted reader state.log, sequence.toNat ≤ state.publishes

variable {reader}

/-- One step of any party keeps it. -/
theorem Following.step {source target : State ι} {party : ι} {choice : Choice}
    (reachable : (system ι targetRead consumers).Reachable source)
    (following : Following reader source)
    (step : source.step (party, choice) = some target)
    (follows : Follows reader source (party, choice) target) : Following reader target where
  single := by
    intro first second firstOurs secondOurs firstCalls secondCalls
    obtain ⟨firstSeen, firstCalls⟩ := Option.ne_none_iff_exists'.mp firstCalls
    obtain ⟨secondSeen, secondCalls⟩ := Option.ne_none_iff_exists'.mp secondCalls
    rcases lastSeen_of_step step firstCalls with firstBefore | ⟨rfl, _, block, rfl⟩
    · rcases lastSeen_of_step step secondCalls with secondBefore | ⟨rfl, _, block, rfl⟩
      · exact following.single firstOurs secondOurs (by simp [firstBefore]) (by simp [secondBefore])
      · have none := (follows secondSeen rfl secondOurs).2 first firstOurs
        exact absurd (none.symm.trans firstBefore) (by simp)
    · rcases lastSeen_of_step step secondCalls with secondBefore | ⟨rfl, _, _, _⟩
      · have none := (follows firstSeen rfl firstOurs).2 second secondOurs
        exact absurd (none.symm.trans secondBefore) (by simp)
      · rfl
  last := by
    intro other lastSeenSeq ours seen
    rcases lastSeen_of_step step seen with before | ⟨rfl, log, block, rfl⟩
    · obtain ⟨act, next, rfl⟩ := State.step_eq_some_iff.mp step
      rcases admitStep_or_same reader next with ⟨_, _, partyOurs, at_, rfl⟩ | same
      · have here : other = party :=
          following.single ours partyOurs (by simp [before]) (by simp [at_, Pc.lastSeen])
        subst here
        rw [State.perform_pc_self] at seen
        cases seen
      · rw [History.lastAdmitted, same]
        exact following.last ours before
    · rw [log]
      exact (follows lastSeenSeq rfl ours).1
  fresh := by
    intro other
    obtain ⟨act, next, rfl⟩ := State.step_eq_some_iff.mp step
    by_cases here : other = party
    · subst here
      rw [State.perform_pc_self]
      exact (next_takes next).fresh (following.fresh other)
    · simp only [Pc.Fresh, State.view_perform Pc.candidate WaitSite.candidate_resume,
        State.view_perform Pc.lastSeen WaitSite.lastSeen_resume, if_neg here]
      exact following.fresh other
  numbered := fun _ admitted => admitted_le_publishes reader (.step reachable step trivial) admitted

theorem following_of_follows {state : State ι}
    (reachable : (system ι targetRead consumers).ReachableVia (Follows reader) state) :
    Following reader state := by
  refine reachable.invariant (Following reader) ?_ ?_
  · rintro _ ⟨capacity, rfl⟩
    exact {
      single := fun _ _ calls => absurd rfl calls
      last := fun _ seen => by cases seen
      fresh := fun _ _ candidate => by cases candidate
      numbered := fun _ admitted => by cases admitted }
  · rintro source ⟨party, choice⟩ target before following step follows
    exact following.step before.reachable step follows

/-- Until the counter wraps, a reader that follows its guards is handed larger
and larger numbers. -/
theorem admitted_increasing {state : State ι}
    (reachable : (system ι targetRead consumers).ReachableVia (Follows reader) state)
    (few : state.publishes < period) :
    (History.admitted reader state.log).Pairwise (· < ·) := by
  refine reachable.invariant (fun state => state.publishes < period →
    (History.admitted reader state.log).Pairwise (· < ·)) ?_ ?_ few
  · rintro _ ⟨capacity, rfl⟩ _
    exact List.Pairwise.nil
  · rintro source ⟨party, choice⟩ target before increasing step _ few
    have fewBefore := Nat.lt_of_le_of_lt (publishes_le_of_step step) few
    have following := following_of_follows before
    obtain ⟨act, next, rfl⟩ := State.step_eq_some_iff.mp step
    rcases admitStep_or_same reader next with ⟨lastSeenSeq, block, ours, at_, rfl⟩ | same
    · have last : lastSeenSeq = History.lastAdmitted reader source.log :=
        following.last ours (by rw [at_]; rfl)
      have fresh : lastSeenSeq ≠ source.msg.currentSequence := by
        have fresh := following.fresh party
        rw [at_] at fresh
        exact fun same => fresh _ rfl (congrArg some same)
      have lower := lastAdmitted_le_currentSequence reader before.reachable (Nat.le_of_lt fewBefore)
      rw [← last] at lower
      have larger : lastSeenSeq < source.msg.currentSequence :=
        BitVec.lt_of_le_ne lower fresh
      rw [last] at larger
      have longer := pairwise_lt_concat (increasing fewBefore) larger
      simpa [History.admitted, ours] using longer
    · rw [same]
      exact increasing fewBefore

/-! ## Numbering -/

/-- Once something was published, the number is not zero again. -/
theorem currentSequence_ne_zero {state : State ι}
    (reachable : (system ι targetRead consumers).Reachable state) (published : 0 < state.publishes) :
    state.msg.currentSequence ≠ 0 := by
  intro zero
  have number := currentSequence_eq_numberAfter reachable
  rw [zero] at number
  exact (numberAfter_ne_zero_iff _).mpr published.ne' number.symm

/-- The `index`-th publish, counted from zero, has number `index % period + 1` and
its call returns that; publishes less than a period apart differ, and zero does
not come back; no other step moves the number; no later step clears the stopped
flag; and a reader that follows its guards sees larger and larger numbers. -/
theorem sequence_numbering {state : State ι}
    (reachable : (system ι targetRead consumers).Reachable state) :
    (∀ index (bound : index < (History.published state.log).length),
      (History.published state.log)[index].sequence.toNat = index % period + 1) ∧
    (∀ party sequence, state.pc party = .done (.sequence sequence) →
      (History.publishedBy party state.log).getLast?.map Message.sequence = some sequence) ∧
    (∀ first second (later : first < second)
      (bound : second < (History.published state.log).length), second - first < period →
      (History.published state.log)[first].sequence ≠
        (History.published state.log)[second].sequence) ∧
    (0 < state.publishes → state.msg.currentSequence ≠ 0) ∧
    (∀ party choice target, state.step (party, choice) = some target →
      (∃ size, state.PublishStep party size target) ∨
        target.msg.currentSequence = state.msg.currentSequence) ∧
    (∀ labels target, (system ι targetRead consumers).exec state labels = some target →
      state.msg.isStopped = true → target.msg.isStopped = true) ∧
    (∀ (reader : ι → Prop) [DecidablePred reader],
      (system ι targetRead consumers).ReachableVia (Follows reader) state →
        state.publishes < period → (History.admitted reader state.log).Pairwise (· < ·)) := by
  refine ⟨?_, ?_, ?_, ?_, ?_, ?_, ?_⟩
  · intro index bound
    exact published_sequence_eq reachable index bound
  · intro party sequence returns
    exact publishedBy_of_returning reachable (by rw [returns]; rfl)
  · intro first second later bound close same
    have numbers := congrArg BitVec.toNat same
    rw [published_sequence_eq reachable, published_sequence_eq reachable] at numbers
    exact numberAfter_injOn (Nat.succ_pos first) (Nat.succ_lt_succ later) (by omega) numbers
  · exact currentSequence_ne_zero reachable
  · intro party choice target step
    rcases publishStep_or_same step with publish | ⟨_, same⟩
    · exact .inl publish
    · exact .inr same
  · intro labels target run stopped
    exact isStopped_of_exec run stopped
  · intro reader _ follows few
    exact admitted_increasing follows few

/-- A writer publishes twice, and a reader follows it. -/
def twoReads : State (Fin 2) :=
  (zeroed (Fin 2)).finish (State.fresh (Fin 2) 4 0 0)
    (calls 0 (.writeSlice [7]) 16 ++ calls 1 (.read 0 true) 5 ++ (1, .drop) :: advances 1 5 ++
      calls 0 (.writeSlice [8]) 16 ++ calls 1 (.read 1 true) 5) (by decide +kernel)

theorem sequence_numbering_twoReads :
    (History.published twoReads.log)[1]?.map Message.sequence = some 2 ∧
      (History.admitted (· = 1) twoReads.log).Pairwise (· < ·) ∧
      History.admitted (· = 1) twoReads.log = [1, 2] :=
  ⟨by decide +kernel,
    (sequence_numbering (System.reachable_finish (initial_fresh (Fin 2) 4 0 0) _)).2.2.2.2.2.2
      (· = 1) (System.reachableVia_finish (initial_fresh (Fin 2) 4 0 0) _
        (by decide +kernel)) (by decide +kernel),
    by decide +kernel⟩

end RsIpc
