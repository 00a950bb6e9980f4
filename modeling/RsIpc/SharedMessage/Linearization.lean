import RsIpc.SharedMessage.Channel
import RsIpc.SharedMessage.Snapshot
import RsIpc.SharedMessage.Stream

/-!
# The memory is an atomic channel

Each call of the memory takes effect at one of its steps: a publish at its exchange,
a read at its second look at the sequence word, a refusal where the stopped flag is
seen.  The channel follows the memory step by step, so whatever is seen of the
memory is seen of the channel.
-/

namespace RsIpc

open Protocol Protocol.Handshake Transition Channel

universe u

/-! ## Where a call takes effect -/

def NotifySite.settled : NotifySite → Option Outcome
  | .published sequence => some (.sequence sequence)
  | .released | .stopReaders | .stopWriters => some .unit
  | .kick _ _ | .unregistered _ _ => none

def UpdateSite.settled : UpdateSite → Option Outcome
  | .release _ => some .unit
  | _ => none

/-- The outcome of a call that has taken effect. -/
def Pc.settled : Pc → Option Outcome
  | .done outcome | .unlock outcome | .abandon outcome => some outcome
  | .clearWriting => some .none
  | .notify site | .wake site => site.settled
  | .update site | .cas site _ => site.settled
  | _ => none

def NotifySite.pending : NotifySite → Bool
  | .kick _ _ | .unregistered _ _ => true
  | _ => false

def UpdateSite.pending : UpdateSite → Bool
  | .release _ | .resetConsumed _ => false
  | _ => true

/-- The call has not taken effect. -/
def Pc.pending : Pc → Bool
  | .idle | .done _ | .clearWriting | .writeGuard | .abandon _ | .loadPacked _ | .exchange _ _
  | .unlock _ | .readGuard _ => false
  | .notify site | .wake site => site.pending
  | .update site | .cas site _ => site.pending
  | _ => true

theorem WaitSite.settled_resume (site : WaitSite) (ticket : Nat) :
    site.resume.settled = (Pc.parked site ticket).settled := by
  cases site <;> rfl

theorem WaitSite.pending_resume (site : WaitSite) (ticket : Nat) :
    site.resume.pending = (Pc.parked site ticket).pending := by
  cases site <;> rfl

theorem Pc.Updating.settled {pc : Pc} {site : UpdateSite} (at_ : pc.Updating site) :
    pc.settled = site.settled := by
  rcases at_ with rfl | ⟨packed, rfl⟩ <;> rfl

theorem Pc.Updating.pending {pc : Pc} {site : UpdateSite} (at_ : pc.Updating site) :
    pc.pending = site.pending := by
  rcases at_ with rfl | ⟨packed, rfl⟩ <;> rfl

/-- What is seen of a step. -/
def seen (msg : SharedMessage) (pc : Pc) : Choice → Option Seen
  | .invoke operation => some (.call operation)
  | .store index byte => some (.store index byte)
  | .publish size => some (.publish size)
  | .drop =>
      match pc with
      | .readGuard sequence => some (.release sequence msg.dataRef)
      | _ => some .discard
  | .go =>
      match pc with
      | .done outcome => some (.result outcome)
      | _ => none
  | .spurious => none

/-- The messages that a step adds. -/
def Act.payload (act : Act) : List (List UInt8) :=
  match act.event with
  | some (.published message) => [message.bytes]
  | _ => []

/-! ## The steps of one party -/

/-- The status of a party describes the point that it is at. -/
def Channel.Status.Describes (msg : SharedMessage) (pc : Pc) : Status → Prop
  | .idle => pc = .idle
  | .called operation => pc.Within msg.capacity operation ∧ pc.pending = true ∧
      ∀ newData, operation = .writeSlice newData → pc.Carries msg.data newData
  | .drafting draft => pc = .writeGuard ∧ msg.data = draft
  | .publishing bytes => ∃ size, pc.publishing = some size ∧ msg.data.take size = bytes
  | .showing number bytes => pc = .readGuard number ∧ msg.dataRef = some bytes
  | .returning outcome => pc.settled = some outcome

/-- The channel follows a step by an action that shows the same, or stays. -/
inductive Followed (msg : SharedMessage) (alone : Prop) (messages : List (List UInt8))
    (status : Status) (seen : Option Seen) (act : Act) : Status → Prop
  | stays (none : seen = none) (silent : act.payload = [])
      (flag : (act.effect.apply msg).isStopped = msg.isStopped) :
      Followed msg alone messages status seen act status
  | acts {next : Status} (acts : Acts msg.capacity alone messages msg.isStopped status seen
      (messages ++ act.payload) (act.effect.apply msg).isStopped next) :
      Followed msg alone messages status seen act next

theorem Effect.isStopped_apply (effect : Effect) (msg : SharedMessage) :
    (effect.apply msg).isStopped =
      match effect with
      | .setStopped => true
      | _ => msg.isStopped := by
  rw [SharedMessage.isStopped, Effect.getSequenceState_apply]
  cases effect <;> rfl

/-- The number that the exchange gives to its message. -/
theorem Effect.currentSequence_publish (msg : SharedMessage) :
    (Effect.publish.apply msg).currentSequence = msg.getSequenceState.nextSequence := by
  rw [SharedMessage.currentSequence, Effect.getSequenceState_apply]
  rfl

/-- A step that adds a message leads to its notification. -/
theorem Takes.payload_eq_nil {msg : SharedMessage} {pc : Pc} {act : Act} (takes : Takes msg pc act)
    (other : ∀ sequence, act.pc ≠ .notify (.published sequence)) : act.payload = [] := by
  unfold Act.payload
  cases takes.record with
  | published size at_ is => exact absurd (by rw [is]) (other msg.getSequenceState.nextSequence)
  | silent event quiet => rw [event]
  | admitted lastSeenSeq block sequence at_ down same is
  | ended lastSeenSeq block ticket at_ stopped same is => rw [is]
  | released sequence at_ effect event | joined at_ effect event next
  | left at_ effect event next => rw [event]

/-- A step after which the call is still to take effect changes nothing of the channel. -/
theorem Takes.quiet_of_pending {msg : SharedMessage} {pc : Pc} {act : Act} (takes : Takes msg pc act)
    (pending : act.pc.pending = true) :
    act.payload = [] ∧ (act.effect.apply msg).isStopped = msg.isStopped := by
  constructor
  · refine takes.payload_eq_nil ?_
    intro sequence is
    rw [is] at pending
    cases pending
  · rw [Effect.isStopped_apply]
    split
    · rename_i is
      cases takes with
      | setStopped => cases pending
      | _ => cases is
    · rfl

section Steps

variable {msg : SharedMessage} {pc : Pc} {act : Act} {alone : Prop} {messages : List (List UInt8)}

/-- A call that takes no effect with the step stays as it is. -/
theorem Takes.followed_of_pending (takes : Takes msg pc act) {operation : Operation}
    (describes : (Status.called operation).Describes msg pc) (pending : act.pc.pending = true) :
    (Status.called operation).Describes (act.effect.apply msg) act.pc ∧
      Followed msg alone messages (.called operation) none act (.called operation) := by
  obtain ⟨within, before, carries⟩ := describes
  obtain ⟨silent, flag⟩ := takes.quiet_of_pending pending
  refine ⟨⟨?_, pending, ?_⟩, .stays rfl silent flag⟩
  · rw [Effect.capacity_apply]
    rcases takes.within within with after | ⟨outcome, done⟩
    · exact after
    · rw [done] at before
      cases before
  · rintro newData rfl
    exact takes.carries within (carries newData rfl)

/-- The step with which a call takes effect. -/
theorem Takes.followed_of_called (takes : Takes msg pc act) {operation : Operation}
    (describes : (Status.called operation).Describes msg pc) (fresh : pc.Fresh)
    (numbered : msg.currentSequence = number messages)
    (shows : ∀ sequence, act.pc = .readGuard sequence → ∃ bytes,
      messages.getLast? = some bytes ∧ (act.effect.apply msg).dataRef = some bytes)
    (isAlone : act.pc.phase = .writing → alone) :
    ∃ next : Status, next.Describes (act.effect.apply msg) act.pc ∧
      Followed msg alone messages (.called operation) none act next := by
  by_cases after : act.pc.pending = true
  · exact ⟨.called operation, takes.followed_of_pending describes after⟩
  · obtain ⟨within, pending, carries⟩ := describes
    have followed : ∀ {next : Status}, act.payload = [] →
        (act.effect.apply msg).isStopped = msg.isStopped →
        Acts msg.capacity alone messages msg.isStopped (.called operation) none messages
          msg.isStopped next →
        Followed msg alone messages (.called operation) none act next := by
      intro next silent flag acts
      refine .acts ?_
      rwa [silent, flag, List.append_nil]
    cases takes with
    | refuse writer stopped | giveUp writer ticket stopped | drainGiveUp writer ticket stopped =>
        exact ⟨.returning .none, rfl, followed rfl rfl (.refuse operation (Writer.writes within) stopped)⟩
    | drainedLarge newData ticket none large =>
        cases within
        exact ⟨.returning .panicked, rfl, followed rfl rfl (.reject newData large)⟩
    | drainedGuard ticket none =>
        cases within
        exact ⟨.drafting msg.data, ⟨rfl, rfl⟩, followed rfl rfl (.start msg.data rfl (isAlone rfl))⟩
    | copied newData index bound =>
        obtain ⟨rfl, fits⟩ := within
        have whole := (Takes.copied newData index bound).carries ⟨rfl, fits⟩ (carries newData rfl)
        exact ⟨.publishing newData, ⟨newData.length, rfl, whole.whole _ rfl⟩,
          followed rfl rfl (.accept newData fits (isAlone rfl))⟩
    | readEnded lastSeenSeq block ticket stopped same =>
        cases within
        exact ⟨.returning .none, rfl, followed rfl rfl
          (.nothing lastSeenSeq block (numbered.symm.trans same) (.inl stopped))⟩
    | readNothing lastSeenSeq ticket running same =>
        cases within
        exact ⟨.returning .none, rfl, followed rfl rfl
          (.nothing lastSeenSeq false (numbered.symm.trans same) (.inr rfl))⟩
    | granted lastSeenSeq block sequence down same =>
        cases within
        obtain ⟨bytes, last, shown⟩ := shows sequence rfl
        obtain rfl : sequence = number messages := same.symm.trans numbered
        have new : number messages ≠ lastSeenSeq := by
          rintro rfl
          exact fresh _ rfl rfl
        exact ⟨.showing (number messages) bytes, ⟨rfl, shown⟩,
          followed rfl rfl (.reveal lastSeenSeq block bytes last new)⟩
    | setStopped =>
        cases within
        have flag := Effect.isStopped_apply .setStopped msg
        refine ⟨.returning .unit, rfl, .acts ?_⟩
        change Acts _ _ _ _ _ _ (messages ++ []) _ _
        rw [flag, List.append_nil]
        exact .stop
    | panic site at_ membership =>
        rw [at_.within] at within
        refine ⟨.returning .panicked, rfl, followed rfl rfl ?_⟩
        rcases membership with rfl | rfl
        · cases within
          exact .membership _ (.inl rfl) .panicked trivial
        · cases within
          exact .membership _ (.inr rfl) .panicked trivial
    | unchangedTarget count at_ same =>
        rw [at_.within] at within
        cases within
        exact ⟨.returning .unit, rfl, followed rfl rfl (.setTarget count)⟩
    | update site policy run =>
        have flag := Effect.isStopped_apply (.mutate site.mutator) msg
        cases site with
        | setTarget count =>
            cases within
            exact ⟨.returning .unit, rfl, followed rfl flag (.setTarget count)⟩
        | addReader =>
            cases within
            exact ⟨.returning .unit, rfl, followed rfl flag (.membership _ (.inl rfl) .unit trivial)⟩
        | removeReader =>
            cases within
            exact ⟨.returning .unit, rfl, followed rfl flag (.membership _ (.inr rfl) .unit trivial)⟩
        | register lastSeenSeq block sequence | unregister lastSeenSeq block => exact absurd rfl after
        | release sequence | resetConsumed size => cases pending
    | compute site at_ =>
        rw [at_.pending] at pending
        exact absurd pending after
    | unchanged size at_ same =>
        rw [at_.pending] at pending
        cases pending
    | notify site => exact absurd pending after
    | wake site =>
        cases site with
        | kick writer ticket | unregistered lastSeenSeq block => exact absurd rfl after
        | _ => cases pending
    | waitReturns site ticket spins changed | wakeUp site ticket =>
        rw [WaitSite.pending_resume site ticket] at after
        exact absurd rfl after
    | invoke operation | finish outcome | clearWriting | store index byte bound | publish size fits
    | refuseSize size large | dropWrite | abandon outcome | loadPacked size | exchange size
    | exchangeFails size oldPacked | unlock outcome | dropRead sequence => cases pending
    | _ => exact absurd rfl after

/-- A call that has taken effect goes on to its return. -/
theorem Takes.settled_kept (takes : Takes msg pc act) {outcome : Outcome}
    (settled : pc.settled = some outcome) (running : ∀ outcome, pc ≠ .done outcome) :
    act.pc.settled = some outcome ∧ act.payload = [] ∧
      (act.effect.apply msg).isStopped = msg.isStopped := by
  cases takes with
  | finish outcome => exact absurd rfl (running outcome)
  | clearWriting => exact ⟨settled, rfl, Effect.isStopped_apply _ msg⟩
  | abandon outcome | unlock outcome => exact ⟨settled, rfl, rfl⟩
  | notify site => exact ⟨settled, rfl, Effect.isStopped_apply _ msg⟩
  | wake site =>
      cases site with
      | kick writer ticket | unregistered lastSeenSeq block => cases settled
      | _ => exact ⟨settled, rfl, rfl⟩
  | compute site at_ => exact ⟨at_.settled.symm.trans settled, rfl, rfl⟩
  | panic site at_ membership =>
      rw [at_.settled] at settled
      rcases membership with rfl | rfl <;> cases settled
  | unchanged size at_ same | unchangedTarget count at_ same =>
      rw [at_.settled] at settled
      cases settled
  | update site policy run =>
      cases site with
      | release sequence =>
          refine ⟨?_, rfl, Effect.isStopped_apply _ msg⟩
          simp only [UpdateSite.after]
          split <;> exact settled
      | _ => cases settled
  | _ => cases settled

/-- What is about to be published stays until the exchange publishes it. -/
theorem Takes.followed_of_publishing (takes : Takes msg pc act) {bytes : List UInt8}
    (describes : (Status.publishing bytes).Describes msg pc)
    (numbered : (act.effect.apply msg).currentSequence = number (messages ++ act.payload)) :
    ∃ next : Status, next.Describes (act.effect.apply msg) act.pc ∧
      Followed msg alone messages (.publishing bytes) none act next := by
  obtain ⟨size, publishing, rfl⟩ := describes
  cases takes with
  | exchange size' =>
      cases publishing
      have issued : msg.getSequenceState.nextSequence = number (messages ++ [msg.data.take size]) := by
        rw [← Effect.currentSequence_publish]
        exact numbered
      have flag : (Effect.publish.apply msg).isStopped = msg.isStopped :=
        Effect.isStopped_apply _ msg
      refine ⟨.returning (.sequence (number (messages ++ [msg.data.take size]))), ?_, .acts ?_⟩
      · change some (Outcome.sequence _) = _
        rw [issued]
      · rw [flag]
        exact .commit _
  | loadPacked stored | exchangeFails stored oldPacked =>
      exact ⟨.publishing _, ⟨size, publishing, rfl⟩, .stays rfl rfl rfl⟩
  | unchanged stored at_ same =>
      exact ⟨.publishing _, ⟨size, at_.publishing.symm.trans publishing, rfl⟩, .stays rfl rfl rfl⟩
  | compute site at_ =>
      exact ⟨.publishing _, ⟨size, at_.publishing.symm.trans publishing, rfl⟩, .stays rfl rfl rfl⟩
  | update site policy run =>
      cases site with
      | resetConsumed stored =>
          refine ⟨.publishing _, ⟨size, publishing, ?_⟩, .stays rfl rfl
            (Effect.isStopped_apply _ msg)⟩
          rw [Effect.data_apply]
      | _ => cases publishing
  | panic site at_ membership =>
      rw [at_.publishing] at publishing
      rcases membership with rfl | rfl <;> cases publishing
  | unchangedTarget count at_ same =>
      rw [at_.publishing] at publishing
      cases publishing
  | _ => cases publishing

/-- The holder of a write guard stores, publishes or drops it. -/
theorem followed_of_drafting {choice : Choice} (taken : next msg choice .writeGuard = some act)
    {draft : List UInt8} (same : msg.data = draft) :
    ∃ next : Status, next.Describes (act.effect.apply msg) act.pc ∧
      Followed msg alone messages (.drafting draft) (seen msg .writeGuard choice) act next := by
  subst same
  cases choice with
  | store index byte =>
      simp only [next, writeGuardStep, Option.ite_none_right_eq_some] at taken
      obtain ⟨bound, taken⟩ := taken
      cases taken
      exact ⟨.drafting (msg.data.set index byte), ⟨rfl, rfl⟩, .acts (by
        rw [Act.payload, List.append_nil]
        exact .store msg.data index byte bound)⟩
  | publish size =>
      simp only [next, writeGuardStep] at taken
      split at taken
      · rename_i large
        cases taken
        exact ⟨.returning .none, rfl, .acts (by
          rw [Act.payload, List.append_nil]
          exact .refuseSize msg.data size large)⟩
      · rename_i fits
        cases taken
        exact ⟨.publishing (msg.data.take size), ⟨size, rfl, rfl⟩, .acts (by
          rw [Act.payload, List.append_nil]
          exact .publish msg.data size (Nat.le_of_not_lt fits))⟩
  | drop =>
      cases taken
      exact ⟨.returning .unit, rfl, .acts (by
        rw [Act.payload, List.append_nil]
        exact .discard msg.data)⟩
  | _ => cases taken

/-- Only a call that has returned, or a guard, shows anything. -/
theorem seen_eq_none {choice : Choice} (taken : next msg choice pc = some act) (idle : pc ≠ .idle)
    (running : ∀ outcome, pc ≠ .done outcome) (write : pc ≠ .writeGuard)
    (read : ∀ sequence, pc ≠ .readGuard sequence) : seen msg pc choice = none := by
  cases choice with
  | go =>
      cases pc with
      | done outcome => exact absurd rfl (running outcome)
      | _ => rfl
  | spurious => rfl
  | invoke operation =>
      cases pc with
      | idle => exact absurd rfl idle
      | writeGuard => exact absurd rfl write
      | _ => cases taken
  | store index byte | publish size =>
      cases pc with
      | writeGuard => exact absurd rfl write
      | _ => cases taken
  | drop =>
      cases pc with
      | writeGuard => exact absurd rfl write
      | readGuard sequence => exact absurd rfl (read sequence)
      | _ => cases taken

/-- The channel follows every step of a party. -/
theorem followed_of_next {choice : Choice} (taken : next msg choice pc = some act) {status : Status}
    (describes : status.Describes msg pc) (fresh : pc.Fresh)
    (numbered : msg.currentSequence = number messages)
    (after : (act.effect.apply msg).currentSequence = number (messages ++ act.payload))
    (shows : ∀ sequence, act.pc = .readGuard sequence → ∃ bytes,
      messages.getLast? = some bytes ∧ (act.effect.apply msg).dataRef = some bytes)
    (isAlone : act.pc.phase = .writing → alone) :
    ∃ next : Status, next.Describes (act.effect.apply msg) act.pc ∧
      Followed msg alone messages status (seen msg pc choice) act next := by
  have takes := next_takes taken
  cases status with
  | idle =>
      obtain rfl : pc = .idle := describes
      cases choice with
      | invoke operation =>
          cases taken
          refine ⟨.called operation, ⟨Operation.within_start _ _, ?_, ?_⟩, .acts ?_⟩
          · cases operation <;> rfl
          · rintro newData rfl
            refine Pc.carries_of_not_writing ?_ _ _
            nofun
          · rw [Act.payload, List.append_nil]
            exact .call operation
      | _ => cases taken
  | called operation =>
      have pending := describes.2.1
      have hidden : seen msg pc choice = none := by
        refine seen_eq_none taken ?_ ?_ ?_ ?_
        · rintro rfl
          cases pending
        · rintro outcome rfl
          cases pending
        · rintro rfl
          cases pending
        · rintro sequence rfl
          cases pending
      rw [hidden]
      exact takes.followed_of_called describes fresh numbered shows isAlone
  | drafting draft =>
      obtain ⟨rfl, same⟩ := describes
      exact followed_of_drafting taken same
  | publishing bytes =>
      have hidden : seen msg pc choice = none := by
        obtain ⟨size, publishing, _⟩ := describes
        refine seen_eq_none taken ?_ ?_ ?_ ?_
        · rintro rfl
          cases publishing
        · rintro outcome rfl
          cases publishing
        · rintro rfl
          cases publishing
        · rintro sequence rfl
          cases publishing
      rw [hidden]
      exact takes.followed_of_publishing describes after
  | showing number bytes =>
      obtain ⟨rfl, shown⟩ := describes
      cases choice with
      | drop =>
          cases taken
          refine ⟨.returning .unit, rfl, .acts ?_⟩
          rw [Act.payload, List.append_nil, seen, shown]
          exact .release number bytes
      | _ => cases taken
  | returning outcome =>
      by_cases returned : ∃ outcome, pc = .done outcome
      · obtain ⟨outcome', rfl⟩ := returned
        cases describes
        cases choice with
        | go =>
            cases taken
            refine ⟨.idle, rfl, .acts ?_⟩
            rw [Act.payload, List.append_nil]
            exact .result outcome
        | _ => cases taken
      · have running : ∀ outcome, pc ≠ .done outcome := fun outcome is => returned ⟨outcome, is⟩
        obtain ⟨settled, silent, flag⟩ := takes.settled_kept describes running
        refine ⟨.returning outcome, settled, .stays (seen_eq_none taken ?_ running ?_ ?_) silent flag⟩
        · rintro rfl
          cases describes
        · rintro rfl
          cases describes
        · rintro sequence rfl
          cases describes

end Steps

/-! ## All parties -/

section Parties

variable {ι : Type u} [DecidableEq ι] {targetRead consumers : BitVec 16}

/-- What is seen of a step of the memory. -/
def seenOf (state : State ι) (label : ι × Choice) : Option (ι × Seen) :=
  (seen state.msg (state.pc label.1) label.2).map fun seen => (label.1, seen)

/-- The channel has the messages and the flag of the memory, and describes every party. -/
structure Represents (state : State ι) (channel : Channel ι) : Prop where
  capacity : channel.capacity = state.msg.capacity
  messages : channel.messages = (History.published state.log).map Message.bytes
  stopped : channel.stopped = state.msg.isStopped
  describes : ∀ party, (channel.status party).Describes state.msg (state.pc party)

/-- A read registers only for a number that it was not called with. -/
theorem fresh_of_reachable {state : State ι}
    (reachable : (system ι targetRead consumers).Reachable state) (party : ι) :
    (state.pc party).Fresh := by
  refine reachable.invariant (fun state => ∀ party, (state.pc party).Fresh) ?_ ?_ party
  · rintro _ ⟨capacity, rfl⟩ party sequence candidate
    cases candidate
  · rintro source ⟨party, choice⟩ target _ fresh step _ other
    obtain ⟨act, chosen, rfl⟩ := State.step_eq_some_iff.mp step
    by_cases here : other = party
    · subst here
      rw [State.perform_pc_self]
      exact (next_takes chosen).fresh (fresh other)
    · simp only [Pc.Fresh, State.view_perform Pc.candidate WaitSite.candidate_resume,
        State.view_perform Pc.lastSeen WaitSite.lastSeen_resume, if_neg here]
      exact fresh other

theorem messages_perform (source : State ι) (party : ι) (act : Act) :
    (History.published (source.perform party act).log).map Message.bytes =
      (History.published source.log).map Message.bytes ++ act.payload := by
  rw [State.perform_log, History.published_append, List.map_append]
  congr 1
  unfold Act.payload
  cases act.event with
  | none => rfl
  | some event => cases event <;> rfl

/-- The steps of other parties leave a party where its status describes it. -/
theorem Channel.Status.Describes.frame [Fintype ι] {source target : State ι} {party other : ι}
    {choice : Choice} {status : Status}
    (describes : status.Describes source.msg (source.pc other))
    (reachable : (system ι targetRead consumers).ReachableVia Bounded source)
    (step : source.step (party, choice) = some target) (ne : other ≠ party) :
    status.Describes target.msg (target.pc other) := by
  have capacity : target.msg.capacity = source.msg.capacity := by
    obtain ⟨act, _, rfl⟩ := State.step_eq_some_iff.mp step
    rw [State.perform_msg, Effect.capacity_apply]
  have data : (source.pc other).phase = .writing → target.msg.data = source.msg.data := by
    intro writing
    refine (same_of_not_writing step fun writes => ne ?_).2.1
    exact (owned_of_reachable reachable.reachable).unique (.inr (.inr writing))
      (.inr (.inr writes))
  have at_ : ∀ pc : Pc, (∀ site : WaitSite, pc ≠ site.resume) → (∀ site ticket, pc ≠ .parked site ticket) →
      source.pc other = pc → target.pc other = pc := by
    intro pc noResume noParked is
    rwa [State.view_of_step (· = pc) (fun site ticket => propext (iff_of_false
      (fun same => noResume site same.symm) fun same => noParked site ticket same.symm)) step ne]
  cases status with
  | idle => exact at_ .idle (fun site => by cases site <;> nofun) nofun describes
  | called operation =>
      obtain ⟨within, pending, carries⟩ := describes
      refine ⟨?_, ?_, fun newData is => ?_⟩
      · rwa [capacity, State.view_of_step (·.Within source.msg.capacity operation)
          (fun site ticket => WaitSite.within_resume _ operation site ticket) step ne]
      · rwa [State.view_of_step Pc.pending WaitSite.pending_resume step ne]
      · rw [State.view_of_step (·.Carries target.msg.data newData)
          (fun site ticket => WaitSite.carries_resume _ _ site ticket) step ne]
        by_cases writing : (source.pc other).phase = .writing
        · rw [data writing]
          exact carries newData is
        · exact Pc.carries_of_not_writing writing _ _
  | drafting draft =>
      obtain ⟨is, same⟩ := describes
      refine ⟨at_ .writeGuard (fun site => by cases site <;> nofun) nofun is, ?_⟩
      rw [data (by rw [is]; rfl), same]
  | publishing bytes =>
      obtain ⟨size, publishing, same⟩ := describes
      refine ⟨size, ?_, ?_⟩
      · rwa [State.view_of_step Pc.publishing WaitSite.publishing_resume step ne]
      · rw [data (Pc.phase_of_publishing publishing), same]
  | showing number bytes =>
      obtain ⟨is, shown⟩ := describes
      refine ⟨at_ (.readGuard number) (fun site => by cases site <;> nofun) nofun is, ?_⟩
      obtain ⟨data, size, _⟩ := stable_of_admitted reachable
        (show (source.pc other).phase = .admitted by rw [is]; rfl) step
      rwa [SharedMessage.dataRef, SharedMessage.capacity, data, size]
  | returning outcome =>
      change (target.pc other).settled = some outcome
      rwa [State.view_of_step Pc.settled WaitSite.settled_resume step ne]

/-- Whoever has a message in the making is in its writing phase. -/
theorem Channel.Status.Describes.writing {msg : SharedMessage} {pc : Pc} {status : Status}
    (describes : status.Describes msg pc) (writes : status.Writes) : pc.phase = .writing := by
  cases status with
  | drafting draft =>
      rw [describes.1]
      rfl
  | publishing bytes =>
      obtain ⟨size, publishing, _⟩ := describes
      exact Pc.phase_of_publishing publishing
  | _ => cases writes

theorem currentSequence_eq_number {state : State ι}
    (reachable : (system ι targetRead consumers).Reachable state) :
    state.msg.currentSequence = number ((History.published state.log).map Message.bytes) := by
  refine BitVec.eq_of_toNat_eq ?_
  rw [currentSequence_eq_numberAfter reachable, number, List.length_map, BitVec.toNat_ofNat,
    Nat.mod_eq_of_lt ((numberAfter_lt _).trans (by decide))]
  rfl

variable [Fintype ι]

/-- A guard that is handed out shows the last message. -/
theorem shows_last {state : State ι}
    (reachable : (system ι targetRead consumers).ReachableVia Clean state) {party : ι}
    {sequence : BitVec 64} (holds : state.pc party = .readGuard sequence) :
    ∃ bytes, ((History.published state.log).map Message.bytes).getLast? = some bytes ∧
      state.msg.dataRef = some bytes := by
  obtain ⟨intact, _, published⟩ :=
    (shown_of_clean reachable).guarded party sequence (by rw [holds]; rfl)
  obtain ⟨message, last⟩ := Option.isSome_iff_exists.mp
    (List.getLast?_isSome.mpr (List.ne_nil_of_length_pos published))
  exact ⟨message.bytes, by rw [List.getLast?_map, last]; rfl, intact message last⟩

/-- The channel follows the memory through all runs in which guards show what was
published. -/
theorem refines_channel :
    (system ι targetRead consumers).Refines Clean seenOf (channel ι) Represents where
  start := by
    rintro _ ⟨capacity, rfl⟩
    exact ⟨⟨capacity, [], false, fun _ => .idle⟩, ⟨rfl, rfl, fun _ => rfl⟩,
      by simp [SharedMessage.capacity, State.fresh, SharedMessage.fresh], rfl, by simp [SharedMessage.isStopped], fun _ => rfl⟩
  step := by
    rintro source target ⟨party, choice⟩ channel before step clean represents
    have reachable := System.ReachableVia.step before step clean
    have others : ∀ other, other ≠ party →
        (channel.status other).Describes target.msg (target.pc other) := fun other ne =>
      (represents.describes other).frame (before.mono fun clean => clean.1) step ne
    obtain ⟨act, taken, rfl⟩ := State.step_eq_some_iff.mp step
    have messages := messages_perform source party act
    rw [← represents.messages] at messages
    have numbered := currentSequence_eq_number before.reachable
    have numberedAfter := currentSequence_eq_number reachable.reachable
    rw [← represents.messages] at numbered
    rw [messages] at numberedAfter
    have shows : ∀ sequence, act.pc = .readGuard sequence → ∃ bytes,
        channel.messages.getLast? = some bytes ∧
          (act.effect.apply source.msg).dataRef = some bytes := by
      intro sequence holds
      have silent : act.payload = [] :=
        (next_takes taken).payload_eq_nil fun number is => by cases holds.symm.trans is
      have shown := shows_last reachable ((State.perform_pc_self source party act).trans holds)
      rwa [messages, silent, List.append_nil] at shown
    -- Whoever else has a message in the making would be in its writing phase as well.
    have isAlone : act.pc.phase = .writing →
        ∀ other, other ≠ party → ¬ (channel.status other).Writes := by
      intro writing other ne writes
      refine ne ((owned_of_reachable reachable.reachable).unique
        (.inr (.inr ((others other ne).writing writes))) (.inr (.inr ?_)))
      change ((source.perform party act).pc party).phase = .writing
      rwa [State.perform_pc_self]
    obtain ⟨next, describes, followed⟩ := followed_of_next taken (represents.describes party)
      (fresh_of_reachable before.reachable party) numbered numberedAfter shows isAlone
    cases followed with
    | stays hidden silent flag =>
        refine ⟨channel, ?_, represents.capacity.trans ?_, ?_, represents.stopped.trans flag.symm, ?_⟩
        · rw [seenOf, hidden]
          exact .refl
        · rw [State.perform_msg, Effect.capacity_apply]
        · rw [messages, silent, List.append_nil]
        · intro other
          by_cases here : other = party
          · subst here
            rw [State.perform_pc_self]
            exact describes
          · exact others other here
    | acts acts =>
        refine ⟨⟨channel.capacity, channel.messages ++ act.payload,
          (act.effect.apply source.msg).isStopped, Function.update channel.status party next⟩,
          .single ⟨party, _, rfl, rfl, ?_, ?_⟩, represents.capacity.trans ?_, messages.symm, rfl, ?_⟩
        · dsimp only
          rw [Function.update_self, represents.capacity, represents.stopped]
          exact acts
        · intro other ne
          exact Function.update_of_ne ne next channel.status
        · rw [State.perform_msg, Effect.capacity_apply]
        · intro other
          by_cases here : other = party
          · subst here
            dsimp only
            rw [Function.update_self, State.perform_pc_self]
            exact describes
          · dsimp only
            rw [Function.update_of_ne here]
            exact others other here

/-- Whatever is seen of a run of the memory, its calls, their outcomes and what its guards
show, is seen of a run of the atomic channel, which ends with the same messages. -/
theorem seen_of_memory_is_seen_of_channel {start target : State ι} {labels : List (ι × Choice)}
    (initial : (system ι targetRead consumers).initial start)
    (run : (system ι targetRead consumers).exec start labels = some target)
    (meet : (system ι targetRead consumers).StepsMeet Clean start labels) :
    ∃ abstract last, (channel ι).initial abstract ∧
      (channel ι).Shows abstract ((system ι targetRead consumers).shown seenOf start labels) last ∧
      Represents target last :=
  refines_channel.traces initial run meet

end Parties

/-! ## A message and its reader -/

/-- A party writes one byte, and another one reads it and drops its guard. -/
def writeThenRead : List (Fin 2 × Choice) :=
  calls 0 (.writeSlice [7]) 16 ++ calls 1 (.read 0 true) 5 ++ (1, .drop) :: advances 1 5

theorem writeThenRead_is_seen_of_channel :
    ∃ abstract last, (channel (Fin 2)).initial abstract ∧
      (channel (Fin 2)).Shows abstract
        [(0, .call (.writeSlice [7])), (0, .result (.sequence 1)), (1, .call (.read 0 true)),
          (1, .release 1 (some [7])), (1, .result .unit)] last ∧
      last.messages = [[7]] := by
  have facts : (zeroed (Fin 2)).StepsMeet Clean (State.fresh (Fin 2) 1 0 0) writeThenRead ∧
      (zeroed (Fin 2)).shown seenOf (State.fresh (Fin 2) 1 0 0) writeThenRead =
        [(0, .call (.writeSlice [7])), (0, .result (.sequence 1)), (1, .call (.read 0 true)),
          (1, .release 1 (some [7])), (1, .result .unit)] ∧
      (((zeroed (Fin 2)).exec (State.fresh (Fin 2) 1 0 0) writeThenRead).map fun state =>
        (History.published state.log).map Message.bytes) = some [[7]] := by decide +kernel
  obtain ⟨meet, seen, published⟩ := facts
  obtain ⟨target, run, messages⟩ := Option.map_eq_some_iff.mp published
  obtain ⟨abstract, last, begins, shows, represents⟩ :=
    seen_of_memory_is_seen_of_channel (initial_fresh (Fin 2) 1 0 0) run meet
  rw [seen] at shows
  exact ⟨abstract, last, begins, shows, represents.messages.trans messages⟩

end RsIpc
