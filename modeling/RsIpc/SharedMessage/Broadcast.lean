import RsIpc.SharedMessage.Abandon
import RsIpc.SharedMessage.Backpressure
import RsIpc.SharedMessage.Snapshot

/-!
# Broadcasts

A broadcast has a fixed set of registered consumers, waits for all of them, and
abandons no write.  Its guards show the last message, and whoever is about to
publish has found that every consumer has consumed the current message.
-/

namespace RsIpc

open Protocol Protocol.Handshake Transition

universe u

/-! ## The buffer between writes -/

/-- A writer leaves its writing phase by a publish or by abandoning the write. -/
theorem Takes.leaves_writing {msg : SharedMessage} {pc : Pc} {act : Act} (takes : Takes msg pc act)
    (writing : pc.phase = .writing) (leaves : act.pc.phase ≠ .writing) :
    (∃ message, act.event = some (.published message)) ∨ act.pc.phase = .outside := by
  cases takes.move with
  | publish was is now =>
      left
      cases takes.record with
      | silent event quiet =>
          rw [is] at quiet
          cases quiet
      | published size at_ act_ => exact ⟨msg.message size, by rw [act_]⟩
      | admitted lastSeenSeq block sequence at_ down same act_
      | ended lastSeenSeq block ticket at_ stopped same act_ =>
          rw [act_] at is
          cases is
      | released sequence at_ effect event | joined at_ effect event next
      | left at_ effect event next =>
          rw [effect] at is
          cases is
  | abandon was is now => exact .inr now
  | observe same is | notify which same is | wake which same is | setStopped same is =>
      exact absurd (same.trans writing) leaves
  | storeByte index byte was is now | storeSize size was is now | resetConsumed was is now =>
      exact absurd now leaves
  | lock free was is now | setWriting was is now | drained none was is now | clearWriting was is now
  | unlock was is now | setTarget count was is now | register was is now | granted down was is now
  | unregister was is now | release was is now | addReader was is now | removeReader was is now =>
      exact absurd (was.symm.trans writing) (by decide)

section Runs

variable {ι : Type u} [DecidableEq ι] {targetRead consumers : BitVec 16} {state : State ι}

/-- In a run that abandons no write, the buffer holds the last published message
whenever nobody is writing. -/
theorem intact_of_publishes
    (reachable : (system ι targetRead consumers).ReachableVia Publishes state)
    (idle : ∀ party, (state.pc party).phase ≠ .writing) : state.Intact := by
  refine reachable.invariant (fun state =>
    (∀ party, (state.pc party).phase ≠ .writing) → state.Intact) ?_ ?_ idle
  · rintro _ ⟨capacity, rfl⟩ _ message last
    cases last
  · rintro source ⟨party, choice⟩ target before intact step publishes idle
    rcases publishStep_or_same step with ⟨size, publish⟩ | ⟨published, _⟩
    · intro message last
      rw [publish.published, List.getLast?_concat] at last
      cases last
      exact (dataRef_of_publishStep before.reachable publish).1
    · have notWriting : (source.pc party).phase ≠ .writing := by
        intro writing
        obtain ⟨act, next, rfl⟩ := State.step_eq_some_iff.mp step
        have leaves := idle party
        rw [State.perform_pc_self] at leaves
        rcases (next_takes next).leaves_writing writing leaves with ⟨message, event⟩ | outside
        · have more : History.published (source.perform party act).log =
              History.published source.log ++ [message] := by
            rw [State.perform_log, event, History.published_append]
            rfl
          rw [more] at published
          exact absurd published (by simp)
        · exact publishes ⟨writing, by rw [State.perform_pc_self]; exact outside⟩
      obtain ⟨_, data, size, _⟩ := same_of_not_writing step notWriting
      refine (intact ?_).congr published data size
      intro other
      obtain ⟨act, next, rfl⟩ := State.step_eq_some_iff.mp step
      have after := idle other
      rw [State.phase_perform] at after
      split at after
      · rename_i here
        rw [here]
        exact notWriting
      · exact after

/-- A run that abandons no write gives up only over the last published message. -/
theorem clearsIntact_of_publishes {label : ι × Choice} {target : State ι}
    (reachable : (system ι targetRead consumers).ReachableVia Publishes state) :
    ClearsIntact state label target := by
  intro clears
  refine intact_of_publishes reachable ?_
  intro other writing
  have flagged : (state.pc label.1).phase = .flagged := congrArg Pc.phase clears
  have here := (owned_of_reachable reachable.reachable).unique (.inr (.inr writing))
    (.inr (.inl flagged))
  subst here
  exact absurd (writing.symm.trans flagged) (by decide)

variable {readers : ι → Bool}

/-- Consumers that pass the number of their last guard pass a published number. -/
theorem known_of_disciplined
    (reachable : (system ι targetRead consumers).ReachableVia (Disciplined readers) state) :
    Known state ∧ ∀ party, History.lastAdmitted (· = party) state.log = 0 ∨
      ∃ message ∈ History.published state.log,
        message.sequence = History.lastAdmitted (· = party) state.log := by
  refine reachable.invariant (fun state => Known state ∧
    ∀ party, History.lastAdmitted (· = party) state.log = 0 ∨
      ∃ message ∈ History.published state.log,
        message.sequence = History.lastAdmitted (· = party) state.log) ?_ ?_
  · rintro _ ⟨capacity, rfl⟩
    constructor
    · constructor
      · intro party lastSeenSeq seen
        cases seen
      · intro party sequence candidate
        cases candidate
    · intro party
      exact .inl rfl
  · rintro source ⟨party, choice⟩ target before ⟨known, numbers⟩ step disciplined
    have informed : Informed source (party, choice) target := by
      intro lastSeenSeq seen
      rw [disciplined.2 lastSeenSeq seen]
      exact numbers party
    refine ⟨known.step before.reachable step informed, ?_⟩
    intro other
    have grows := published_subset_of_step step
    obtain ⟨act, next, rfl⟩ := State.step_eq_some_iff.mp step
    rcases lastAdmitted_perform next other with ⟨lastSeenSeq, block, rfl, at_, rfl⟩ | same
    · right
      have some := known.candidate other source.msg.currentSequence (by rw [at_]; rfl)
      obtain ⟨message, published, number⟩ := exists_current_message before.reachable some
      refine ⟨message, grows published, ?_⟩
      rw [State.perform_log, History.lastAdmitted, History.admitted_append]
      simp [History.admitted, number]
    · rw [same]
      rcases numbers other with zero | ⟨message, published, number⟩
      · exact .inl zero
      · exact .inr ⟨message, grows published, number⟩

theorem informed_of_disciplined {label : ι × Choice} {target : State ι}
    (reachable : (system ι targetRead consumers).ReachableVia (Disciplined readers) state)
    (disciplined : Disciplined readers state label target) : Informed state label target := by
  intro lastSeenSeq seen
  rw [disciplined.2 lastSeenSeq seen]
  exact (known_of_disciplined reachable).2 label.1

end Runs

/-! ## Past the backpressure loop -/

/-- `start_write` waits for no consumer any more, and its call has not published. -/
def Pc.Proceeds (pc : Pc) : Prop :=
  pc.past = true ∨ pc.phase.Raised

theorem WaitSite.proceeds_resume (site : WaitSite) (ticket : Nat) :
    site.resume.Proceeds = (Pc.parked site ticket).Proceeds := by
  cases site <;> rfl

theorem Pc.Proceeds.holds {pc : Pc} (proceeds : pc.Proceeds) : pc.phase.Holds := by
  rcases proceeds with past | raised
  · cases pc with
    | setWriting writer | firstTicket writer readerState => exact .inl rfl
    | _ => cases past
  · exact raised.holds

/-- Only a load of the readers word lets a writer past. -/
theorem Takes.proceeds {msg : SharedMessage} {pc : Pc} {act : Act} (takes : Takes msg pc act)
    (proceeds : act.pc.Proceeds) :
    pc.Proceeds ∨ pc.checking = true ∧ act.pc.past = true := by
  rcases proceeds with past | raised
  · cases takes with
    | loadReaders writer currentSeq target positive | loadReadersPass writer currentSeq free
    | nextPass writer ticket consumed => exact .inr ⟨rfl, past⟩
    | firstPass writer readerState consumed =>
        exact .inl (.inl (by simpa [Pc.past] using consumed))
    | invoke operation => cases operation <;> cases past
    | waitReturns site ticket spins changed | wakeUp site ticket => cases site <;> cases past
    | wake site => cases site <;> cases past
    | update site policy run =>
        cases site with
        | release sequence =>
            simp only [UpdateSite.after] at past
            split at past <;> cases past
        | _ => cases past
    | _ => cases past
  · left
    cases takes.move with
    | observe same is | notify which same is | wake which same is | setStopped same is =>
        exact .inr (same ▸ raised)
    | setWriting was is now =>
        cases takes with
        | setWriting writer => exact .inl rfl
        | _ => cases is
    | drained none was is now => exact .inr (.inl was)
    | storeByte index byte was is now | storeSize size was is now | resetConsumed was is now =>
        exact .inr (.inr was)
    | lock free was is now | clearWriting was is now | publish was is now | abandon was is now
    | unlock was is now | setTarget count was is now | register was is now | granted down was is now
    | unregister was is now | release was is now | addReader was is now | removeReader was is now =>
        rw [now] at raised
        rcases raised with is | is <;> cases is

/-- Whoever publishes was past the loop before, and is not afterwards. -/
theorem Takes.proceeds_of_published {msg : SharedMessage} {pc : Pc} {act : Act}
    (takes : Takes msg pc act) {message : Message} (event : act.event = some (.published message)) :
    pc.Proceeds ∧ ¬ act.pc.Proceeds := by
  cases takes.record with
  | published size at_ is =>
      rw [at_, is]
      refine ⟨.inr (.inr rfl), ?_⟩
      rintro (past | raised | raised)
      · cases past
      · cases raised
      · cases raised
  | silent none quiet =>
      rw [none] at event
      cases event
  | admitted lastSeenSeq block sequence at_ down same is
  | ended lastSeenSeq block ticket at_ stopped same is =>
      rw [is] at event
      cases event
  | released sequence at_ effect is | joined at_ effect is next | left at_ effect is next =>
      rw [is] at event
      cases event

section Awaited

variable {ι : Type u} [DecidableEq ι] {targetRead consumers : BitVec 16}

/-- A writer that is past the loop over a published message has the consumers behind it. -/
def State.Awaited (readers : ι → Prop) (state : State ι) : Prop :=
  ∀ party, (state.pc party).Proceeds → state.msg.currentSequence = 0 ∨
    ∀ reader, readers reader → (reader, state.msg.currentSequence) ∈ History.consumed state.log

/-- The next step keeps it, if it waits for all readers and they are registered. -/
theorem State.Awaited.step [Fintype ι] {readers : ι → Prop} {initially : ι → Bool}
    {source target : State ι} {party : ι} {choice : Choice}
    (initial : consumers.toNat = count fun party => initially party = true)
    (reachable : (system ι targetRead consumers).ReachableVia (Abiding initially) source)
    (awaited : source.Awaited readers) (step : source.step (party, choice) = some target)
    (all : (source.pc party).checking = true → source.msg.getReaderState.targetRead = 65535 ∧
      ∀ reader, readers reader → History.enrolled initially source.log reader = true) :
    target.Awaited readers := by
  obtain ⟨act, next, rfl⟩ := State.step_eq_some_iff.mp step
  intro other proceeds
  rw [State.view_perform Pc.Proceeds WaitSite.proceeds_resume] at proceeds
  have unpublished : ∀ message, act.event ≠ some (.published message) := by
    intro message event
    obtain ⟨before, after⟩ := (next_takes next).proceeds_of_published event
    split at proceeds
    · exact after proceeds
    · rename_i ne
      exact ne ((owned_of_reachable reachable.reachable).unique proceeds.holds before.holds)
  have carry : (source.msg.currentSequence = 0 ∨ ∀ reader, readers reader →
        (reader, source.msg.currentSequence) ∈ History.consumed source.log) →
      (act.effect.apply source.msg).currentSequence = 0 ∨ ∀ reader, readers reader →
        (reader, (act.effect.apply source.msg).currentSequence) ∈
          History.consumed (source.perform party act).log := by
    rw [currentSequence_kept next unpublished]
    rintro (zero | consumed)
    · exact .inl zero
    · right
      intro reader ours
      rcases consumed_of_step next with ⟨message, event, _⟩ | ⟨_, _, _, _, more⟩ | ⟨_, same⟩
      · exact absurd event (unpublished message)
      · rw [more]
        exact List.mem_append_left _ (consumed reader ours)
      · rw [same]
        exact consumed reader ours
  rw [State.perform_msg]
  split at proceeds
  · rename_i here
    subst here
    rcases (next_takes next).proceeds proceeds with before | ⟨checking, past⟩
    · exact carry (awaited other before)
    · refine carry ?_
      by_cases zero : source.msg.currentSequence = 0
      · exact .inl zero
      · right
        intro reader ours
        obtain ⟨target, enrolled⟩ := all checking
        have enough := consumed_of_passes initial reachable step checking
          (by rwa [State.perform_pc_self]) (BitVec.lt_of_le_ne (Nat.zero_le _) (Ne.symm zero))
        have registered := consumers_eq_count initial (reachable.mono fun abiding => abiding.1)
        have bound := source.msg.getReaderState.consumers.isLt
        rw [target, ← registered, Nat.min_eq_right (by simp; omega), registered] at enough
        exact imp_of_count_le enough (enrolled reader ours)
  · exact carry (awaited other proceeds)

/-! ## At most one message behind -/

/-- The reader has been given the last message or the one before it: as many guards as
there are messages, or one less. -/
structure State.Abreast (state : State ι) (reader : ι) : Prop where
  number : (History.lastAdmitted (· = reader) state.log).toNat =
    numberAfter (History.admitted (· = reader) state.log).length
  lower : (History.admitted (· = reader) state.log).length ≤ state.publishes
  upper : state.publishes ≤ (History.admitted (· = reader) state.log).length + 1

/-- A reader whose last guard has the current number has been given every message. -/
theorem State.Abreast.length_eq {state : State ι} {reader : ι} (abreast : state.Abreast reader)
    (reachable : (system ι targetRead consumers).Reachable state)
    (current : History.lastAdmitted (· = reader) state.log = state.msg.currentSequence) :
    (History.admitted (· = reader) state.log).length = state.publishes := by
  have number := abreast.number
  rw [current, currentSequence_eq_numberAfter reachable] at number
  have lower := abreast.lower
  have upper := abreast.upper
  by_contra behind
  rw [show state.publishes = (History.admitted (· = reader) state.log).length + 1 by omega] at number
  exact numberAfter_succ_ne _ number

/-- A publish finds every reader with all messages. -/
theorem State.Abreast.all_of_publish [Fintype ι] {readers : ι → Prop} {initially : ι → Bool}
    {source target : State ι} {party reader : ι} {size : Nat}
    (initial : consumers.toNat = count fun party => initially party = true)
    (reachable : (system ι targetRead consumers).ReachableVia (Abiding initially) source)
    (awaited : source.Awaited readers) (ours : readers reader) (abreast : source.Abreast reader)
    (publish : source.PublishStep party size target) :
    (History.admitted (· = reader) source.log).length = source.publishes := by
  have proceeds : (source.pc party).Proceeds := .inr (.inr (congrArg Pc.phase publish.at_))
  rcases awaited party proceeds with zero | consumed
  · have none : source.publishes = 0 := by
      by_contra some
      exact currentSequence_ne_zero reachable.reachable (Nat.pos_of_ne_zero some) zero
    have lower := abreast.lower
    omega
  · have counted := counted_of_abiding initial reachable
    obtain ⟨_, _, last⟩ := counted.current _ (consumed reader ours)
    exact abreast.length_eq reachable.reachable last

theorem State.Abreast.step [Fintype ι] {readers : ι → Prop} {initially : ι → Bool}
    {source target : State ι} {party reader : ι} {choice : Choice}
    (initial : consumers.toNat = count fun party => initially party = true)
    (reachable : (system ι targetRead consumers).ReachableVia (Abiding initially) source)
    (awaited : source.Awaited readers) (ours : readers reader) (abreast : source.Abreast reader)
    (step : source.step (party, choice) = some target) : target.Abreast reader := by
  rcases publishStep_or_same step with ⟨size, publish⟩ | ⟨published, _⟩
  · have all := abreast.all_of_publish initial reachable awaited ours publish
    have same : History.admitted (· = reader) target.log = History.admitted (· = reader) source.log := by
      rw [publish.target_eq, State.perform_log, History.admitted_append]
      exact List.append_nil _
    constructor
    · rw [History.lastAdmitted, same]
      exact abreast.number
    · rw [same, publish.publishes]
      omega
    · rw [same, publish.publishes]
      omega
  · have kept : target.publishes = source.publishes := congrArg List.length published
    obtain ⟨act, chosen, rfl⟩ := State.step_eq_some_iff.mp step
    rcases admitStep_or_same (· = reader) chosen with ⟨lastSeenSeq, block, here, at_, is⟩ | same
    · -- The guard is for another message than the last one, so for the next one.
      subst here
      have behind : (History.admitted (· = party) source.log).length ≠ source.publishes := by
        intro all
        have number := abreast.number
        rw [all, ← currentSequence_eq_numberAfter reachable.reachable] at number
        exact lastAdmitted_ne_of_verify reachable at_ (BitVec.eq_of_toNat_eq number)
      have more : History.admitted (· = party) (source.perform party act).log =
          History.admitted (· = party) source.log ++ [source.msg.currentSequence] := by
        rw [is, State.perform_log, History.admitted_append]
        simp [History.admitted]
      have lower := abreast.lower
      have upper := abreast.upper
      constructor
      · rw [History.lastAdmitted, more, List.getLastD_concat, List.length_append,
          List.length_singleton, currentSequence_eq_numberAfter reachable.reachable]
        congr 1
        omega
      · rw [more, kept, List.length_append, List.length_singleton]
        omega
      · rw [more, kept, List.length_append, List.length_singleton]
        omega
    · constructor
      · rw [History.lastAdmitted, same]
        exact abreast.number
      · rw [same, kept]
        exact abreast.lower
      · rw [same, kept]
        exact abreast.upper

end Awaited

end RsIpc
