import RsIpc.SharedMessage.Phase

/-!
# The history of a run

Which steps the history records, and what the words are when they are taken.
The projections of a history are folds over it, so that a step appends to each
of them exactly what it records.
-/

namespace RsIpc

open Transition

universe u

/-- The operations that the history does not record. -/
def Effect.Quiet : Effect → Prop
  | .publish | .mutate .release | .mutate .addReader | .mutate .removeReader => False
  | _ => True

/-- A step and what the history records of it. -/
inductive Record (msg : SharedMessage) (pc : Pc) (act : Act) : Prop
  | silent (event : act.event = none) (quiet : act.effect.Quiet)
  | published (size : Nat) (at_ : pc = .exchange size msg.sequenceAndFlags)
      (is : act = ⟨.publish, .notify (.published msg.getSequenceState.nextSequence),
        some (.published (msg.message size))⟩)
  | admitted (lastSeenSeq : BitVec 64) (block : Bool) (sequence : BitVec 64)
      (at_ : pc = .verify lastSeenSeq block sequence)
      (down : msg.getSequenceState.writingInProgress = false)
      (same : msg.currentSequence = sequence)
      (is : act = ⟨.observe, .readGuard sequence, some (.admitted sequence)⟩)
  | ended (lastSeenSeq : BitVec 64) (block : Bool) (ticket : Nat)
      (at_ : pc = .readState lastSeenSeq block ticket) (stopped : msg.isStopped = true)
      (same : msg.currentSequence = lastSeenSeq)
      (is : act = ⟨.observe, .done .none, some (.ended lastSeenSeq)⟩)
  | released (sequence : BitVec 64) (at_ : pc = .cas (.release sequence) msg.readersState)
      (effect : act.effect = .mutate .release) (event : act.event = some (.released sequence))
  | joined (at_ : pc = .cas .addReader msg.readersState)
      (effect : act.effect = .mutate .addReader) (event : act.event = some .joined)
      (next : act.pc = .done .unit)
  | left (at_ : pc = .cas .removeReader msg.readersState)
      (effect : act.effect = .mutate .removeReader) (event : act.event = some .left)
      (next : act.pc = .done .unit)

/-- What the history records of a step, by the point it is taken at. -/
theorem Takes.record {msg : SharedMessage} {pc : Pc} {act : Act} (takes : Takes msg pc act) :
    Record msg pc act := by
  cases takes with
  | exchange size => exact .published size rfl rfl
  | granted lastSeenSeq block sequence down same =>
      exact .admitted lastSeenSeq block sequence rfl down same rfl
  | readEnded lastSeenSeq block ticket stopped same =>
      exact .ended lastSeenSeq block ticket rfl stopped same rfl
  | update site policy run =>
      cases site with
      | release sequence => exact .released sequence rfl rfl rfl
      | addReader => exact .joined rfl rfl rfl rfl
      | removeReader => exact .left rfl rfl rfl rfl
      | _ => exact .silent rfl trivial
  | _ => exact .silent rfl trivial

/-- Every step is recorded as `Record` says. -/
theorem next_record {msg : SharedMessage} {choice : Choice} {pc : Pc} {act : Act}
    (step : next msg choice pc = some act) : Record msg pc act :=
  (next_takes step).record

/-- The flag is lowered by a publish or by the give-up branch. -/
theorem Takes.lowers {msg : SharedMessage} {pc : Pc} {act : Act} (takes : Takes msg pc act)
    (up : msg.getSequenceState.writingInProgress = true)
    (down : (act.effect.apply msg).getSequenceState.writingInProgress = false) :
    (∃ message, act.event = some (.published message) ∧
        act.pc = .notify (.published message.sequence)) ∨ pc = .clearWriting := by
  rw [Effect.getSequenceState_apply] at down
  cases takes with
  | exchange size => exact .inl ⟨msg.message size, rfl, rfl⟩
  | clearWriting => exact .inr rfl
  | setWriting writer => cases down
  | _ => exact absurd (up.symm.trans down) (by decide)

/-- The sequence number is moved by a publish. -/
theorem Takes.publishes {msg : SharedMessage} {pc : Pc} {act : Act} (takes : Takes msg pc act)
    (moved : (act.effect.apply msg).currentSequence ≠ msg.currentSequence) :
    ∃ message, act.event = some (.published message) ∧
      act.pc = .notify (.published message.sequence) := by
  rw [SharedMessage.currentSequence, Effect.getSequenceState_apply] at moved
  cases takes with
  | exchange size => exact ⟨msg.message size, rfl, rfl⟩
  | _ => exact absurd rfl moved

/-! ## Projections -/

namespace History

variable {ι : Type u}

/-- The messages published so far, in the order of their exchanges. -/
def published (log : List (ι × Event)) : List Message :=
  log.filterMap fun entry =>
    match entry.2 with
    | .published message => some message
    | _ => none

@[simp]
theorem published_append (first second : List (ι × Event)) :
    published (first ++ second) = published first ++ published second :=
  List.filterMap_append

/-- The messages that a party published. -/
def publishedBy [DecidableEq ι] (party : ι) (log : List (ι × Event)) : List Message :=
  log.filterMap fun entry =>
    match entry.2 with
    | .published message => if entry.1 = party then some message else none
    | _ => none

@[simp]
theorem publishedBy_append [DecidableEq ι] (party : ι) (first second : List (ι × Event)) :
    publishedBy party (first ++ second) = publishedBy party first ++ publishedBy party second :=
  List.filterMap_append

/-- The sequences of the guards that the parties of a reader obtained, in order. -/
def admitted (reader : ι → Prop) [DecidablePred reader] (log : List (ι × Event)) :
    List (BitVec 64) :=
  log.filterMap fun entry =>
    match entry.2 with
    | .admitted sequence => if reader entry.1 then some sequence else none
    | _ => none

@[simp]
theorem admitted_append (reader : ι → Prop) [DecidablePred reader]
    (first second : List (ι × Event)) :
    admitted reader (first ++ second) = admitted reader first ++ admitted reader second :=
  List.filterMap_append

end History

/-! ## Publishing steps -/

section Publishing

variable {ι : Type u} [DecidableEq ι]

/-- A successful exchange of `publish_write` by a party. -/
structure State.PublishStep (source : State ι) (party : ι) (size : Nat) (target : State ι) :
    Prop where
  at_ : source.pc party = .exchange size source.msg.sequenceAndFlags
  target_eq : target = source.perform party
    ⟨.publish, .notify (.published source.msg.getSequenceState.nextSequence),
      some (.published (source.msg.message size))⟩

theorem State.PublishStep.published {source target : State ι} {party : ι} {size : Nat}
    (publish : source.PublishStep party size target) :
    History.published target.log = History.published source.log ++ [source.msg.message size] := by
  rw [publish.target_eq, State.perform_log, History.published_append]
  rfl

theorem State.PublishStep.currentSequence {source target : State ι} {party : ι} {size : Nat}
    (publish : source.PublishStep party size target) :
    target.msg.currentSequence = source.msg.getSequenceState.nextSequence := by
  rw [publish.target_eq, State.perform_msg, SharedMessage.currentSequence,
    Effect.getSequenceState_apply]
  rfl

/-- A step either publishes, or it leaves the published messages and the
sequence number alone. -/
theorem publishStep_or_same {source target : State ι} {party : ι} {choice : Choice}
    (step : source.step (party, choice) = some target) :
    (∃ size, source.PublishStep party size target) ∨
      (History.published target.log = History.published source.log ∧
        target.msg.currentSequence = source.msg.currentSequence) := by
  obtain ⟨act, next, rfl⟩ := State.step_eq_some_iff.mp step
  rw [State.perform_log, History.published_append, State.perform_msg,
    SharedMessage.currentSequence, Effect.getSequenceState_apply]
  cases next_record next with
  | published size at_ is =>
      left
      exact ⟨size, at_, congrArg (source.perform party) is⟩
  | silent event quiet =>
      right
      rw [event]
      cases effect : act.effect with
      | publish => simp [effect, Effect.Quiet] at quiet
      | _ => exact ⟨List.append_nil _, rfl⟩
  | admitted lastSeenSeq block sequence at_ down same is
  | ended lastSeenSeq block ticket at_ stopped same is =>
      subst is
      exact .inr ⟨List.append_nil _, rfl⟩
  | released sequence at_ effect event | joined at_ effect event next | left at_ effect event next =>
      rw [event, effect]
      exact .inr ⟨List.append_nil _, rfl⟩

end Publishing

end RsIpc
