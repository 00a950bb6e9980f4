import RsIpc.SharedMessage.Sequencing
import RsIpc.Transition.Client

/-!
# One writer instance, many threads

`write`, the background writer thread and `publish` of a write guard all store the
number of their message in `last_written_sequence` when the publish has returned,
and by then the writer mutex is free again.
-/

namespace RsIpc

open Protocol Transition SequenceState

universe u

/-! ## Numbers of an instance -/

/-- The numbers of the messages that a group of parties published. -/
def History.written {ι : Type u} (writers : ι → Prop) [DecidablePred writers]
    (log : List (ι × Event)) : List (BitVec 64) :=
  log.filterMap fun entry =>
    match entry.2 with
    | .published message => if writers entry.1 then some message.sequence else none
    | _ => none

theorem UpdateSite.event_ne_published (site : UpdateSite) (message : Message) :
    site.event ≠ some (.published message) := by
  intro is
  cases site <;> cases is

/-- A step publishes, or it leaves the number that its call is going to return alone. -/
theorem Takes.returning_kept {msg : SharedMessage} {pc : Pc} {act : Act} (takes : Takes msg pc act)
    (running : ∀ outcome, pc ≠ .done outcome) :
    (∃ size, pc.returning = none ∧ act.event = some (.published (msg.message size)) ∧
        act.pc.returning = some (msg.message size).sequence) ∨
      (∀ message, act.event ≠ some (.published message)) ∧ act.pc.returning = pc.returning := by
  cases takes with
  | exchange size => exact .inl ⟨size, rfl, rfl, rfl⟩
  | finish outcome => exact absurd rfl (running outcome)
  | invoke operation => exact .inr ⟨(fun _ is => by cases is), by cases operation <;> rfl⟩
  | waitReturns site ticket spins changed | wakeUp site ticket =>
      exact .inr ⟨(fun _ is => by cases is), by cases site <;> rfl⟩
  | notify site => exact .inr ⟨(fun _ is => by cases is), by cases site <;> rfl⟩
  | wake site => exact .inr ⟨(fun _ is => by cases is), by cases site <;> rfl⟩
  | unchanged size at_ same => exact .inr ⟨(fun _ is => by cases is), by rcases at_ with rfl | ⟨packed, rfl⟩ <;> rfl⟩
  | unchangedTarget count at_ same =>
      exact .inr ⟨(fun _ is => by cases is), by rcases at_ with rfl | ⟨packed, rfl⟩ <;> rfl⟩
  | compute site at_ => exact .inr ⟨(fun _ is => by cases is), by rcases at_ with rfl | ⟨packed, rfl⟩ <;> rfl⟩
  | panic site at_ membership =>
      exact .inr ⟨(fun _ is => by cases is), by rcases at_ with rfl | ⟨packed, rfl⟩ <;> rfl⟩
  | update site policy run =>
      refine .inr ⟨site.event_ne_published, ?_⟩
      cases site with
      | release sequence =>
          simp only [UpdateSite.after]
          split <;> rfl
      | _ => rfl
  | _ => exact .inr ⟨(fun _ is => by cases is), rfl⟩

namespace WriteSync

/-- The instance: the last number stored, which of its calls that have a number have
stored it, and the numbers that its calls returned. -/
structure Instance (ι : Type u) where
  lastWrittenSequence : BitVec 64
  stored : ι → Bool
  returned : List (BitVec 64)

/-- The steps of the whole: those of parties that are not threads of the instance,
and what a thread of the instance does. -/
inductive Choice (ι : Type u)
  | others (party : ι) (choice : RsIpc.Choice)
  | write (thread : ι) (data : List UInt8)
  | writeGuard (thread : ι)
  | run (thread : ι) (choice : RsIpc.Choice)
  | store (thread : ι)
  | finish (thread : ι)
  deriving DecidableEq

variable {ι : Type u} [DecidableEq ι]

def Instance.mark (own : Instance ι) (thread : ι) (stored : Bool) : ι → Bool :=
  fun other => if other = thread then stored else own.stored other

/-- `write` and `write_guard`.  Data beyond the capacity is refused at once, and a
publish that has returned a number stores it before the call ends. -/
def client (threads : ι → Prop) [DecidablePred threads] :
    Client (State ι) (ι × RsIpc.Choice) (Instance ι) (Choice ι) :=
  fun core own choice =>
    match choice with
    | .others party choice => if threads party then none else some (some (party, choice), own)
    | .write thread data =>
        if threads thread ∧ data.length ≤ core.msg.capacity then
          some (some (thread, .invoke (.writeSlice data)), own)
        else none
    | .writeGuard thread =>
        if threads thread then some (some (thread, .invoke .write), own) else none
    | .run thread choice =>
        match core.pc thread with
        | .idle | .done _ => none
        | _ => if threads thread then some (some (thread, choice), own) else none
    | .store thread =>
        match core.pc thread with
        | .done (.sequence number) =>
            if threads thread ∧ own.stored thread = false then
              some (none, { own with
                lastWrittenSequence := number, stored := own.mark thread true })
            else none
        | _ => none
    | .finish thread =>
        match core.pc thread with
        | .done (.sequence number) =>
            if threads thread ∧ own.stored thread = true then
              some (some (thread, .go), { own with
                stored := own.mark thread false, returned := own.returned ++ [number] })
            else none
        | .done _ => if threads thread then some (some (thread, .go), own) else none
        | _ => none

/-- An instance over memory that other parties use as well. -/
def system (threads : ι → Prop) [DecidablePred threads] (targetRead consumers : BitVec 16) :
    System (Joint (State ι) (Instance ι)) (Choice ι) :=
  (RsIpc.system ι targetRead consumers).joint (client threads) ⟨0, fun _ => false, []⟩

/-- A thread of the instance has published with this number and has not stored it. -/
def Unstored (threads : ι → Prop) (state : Joint (State ι) (Instance ι)) (thread : ι)
    (sequence : BitVec 64) : Prop :=
  threads thread ∧ (state.core.pc thread).returning = some sequence ∧
    state.own.stored thread = false

/-- Whenever a call stores its number, no other call has published with a number as
small that it has not stored. -/
def InOrder (threads : ι → Prop) : StepCondition (Joint (State ι) (Instance ι)) (Choice ι) :=
  fun source choice _ =>
    match choice with
    | .store thread => ∀ sequence ∈ (source.core.pc thread).returning,
        ∀ other, threads other → other ≠ thread → source.own.stored other = false →
          ∀ number ∈ (source.core.pc other).returning, sequence < number
    | _ => True

instance [Fintype ι] (threads : ι → Prop) [DecidablePred threads]
    (source : Joint (State ι) (Instance ι)) (choice : Choice ι)
    (target : Joint (State ι) (Instance ι)) : Decidable (InOrder threads source choice target) :=
  have (sequence : BitVec 64) (other : ι) :
      Decidable (∀ number ∈ (source.core.pc other).returning, sequence < number) :=
    Option.decidableForallMem (source.core.pc other).returning
  match choice with
  | .store thread => Option.decidableForallMem (source.core.pc thread).returning
  | .others _ _ | .write _ _ | .writeGuard _ | .run _ _ | .finish _ => .isTrue trivial

/-- The number stored is the greatest that a call returned, zero if none did. -/
def Instance.Newest (own : Instance ι) : Prop :=
  (∀ number ∈ own.returned, number ≤ own.lastWrittenSequence) ∧
    (own.lastWrittenSequence ∈ own.returned ∨ own.returned = [] ∧ own.lastWrittenSequence = 0)

omit [DecidableEq ι] in
instance (own : Instance ι) : Decidable own.Newest :=
  have : Decidable (∀ number ∈ own.returned, number ≤ own.lastWrittenSequence) :=
    List.decidableBAll _ own.returned
  inferInstanceAs (Decidable (_ ∧ _))

/-! ## The steps -/

section Steps

variable {threads : ι → Prop} [DecidablePred threads] {targetRead consumers : BitVec 16}

/-- What each choice does. -/
inductive Moves (threads : ι → Prop) (source : Joint (State ι) (Instance ι)) :
    Choice ι → Joint (State ι) (Instance ι) → Prop
  | others (party : ι) (choice : RsIpc.Choice) (theirs : ¬ threads party) {core : State ι}
      (taken : source.core.step (party, choice) = some core) :
      Moves threads source (.others party choice) ⟨core, source.own⟩
  | write (thread : ι) (data : List UInt8) (ours : threads thread) {core : State ι}
      (taken : source.core.step (thread, .invoke (.writeSlice data)) = some core) :
      Moves threads source (.write thread data) ⟨core, source.own⟩
  | writeGuard (thread : ι) (ours : threads thread) {core : State ι}
      (taken : source.core.step (thread, .invoke .write) = some core) :
      Moves threads source (.writeGuard thread) ⟨core, source.own⟩
  | run (thread : ι) (choice : RsIpc.Choice) (ours : threads thread)
      (running : ∀ outcome, source.core.pc thread ≠ .done outcome) {core : State ι}
      (taken : source.core.step (thread, choice) = some core) :
      Moves threads source (.run thread choice) ⟨core, source.own⟩
  | store (thread : ι) (sequence : BitVec 64) (ours : threads thread)
      (done : source.core.pc thread = .done (.sequence sequence))
      (unstored : source.own.stored thread = false) :
      Moves threads source (.store thread) ⟨source.core, { source.own with
        lastWrittenSequence := sequence, stored := source.own.mark thread true }⟩
  | finish (thread : ι) (sequence : BitVec 64) (ours : threads thread)
      (done : source.core.pc thread = .done (.sequence sequence))
      (stored : source.own.stored thread = true) {core : State ι}
      (taken : source.core.step (thread, .go) = some core) :
      Moves threads source (.finish thread) ⟨core, { source.own with
        stored := source.own.mark thread false,
        returned := source.own.returned ++ [sequence] }⟩
  | fail (thread : ι) (outcome : Outcome) (ours : threads thread)
      (done : source.core.pc thread = .done outcome) (none : outcome.returned = none)
      {core : State ι} (taken : source.core.step (thread, .go) = some core) :
      Moves threads source (.finish thread) ⟨core, source.own⟩

theorem moves_of_step {source target : Joint (State ι) (Instance ι)} {choice : Choice ι}
    (step : (system threads targetRead consumers).step source choice = some target) :
    Moves threads source choice target := by
  obtain ⟨targetCore, targetOwn⟩ := target
  rcases System.joint_step step with ⟨moves, core⟩ | ⟨⟨party, taken⟩, moves, steps⟩
  · change targetCore = source.core at core
    subst core
    cases choice with
    | store thread =>
        simp only [client] at moves
        split at moves
        · rename_i sequence done
          rw [Option.ite_none_right_eq_some] at moves
          obtain ⟨⟨ours, unstored⟩, moves⟩ := moves
          cases moves
          exact .store thread sequence ours done unstored
        · cases moves
    | run thread choice | finish thread =>
        simp only [client] at moves
        split at moves <;> first | cases moves | (split at moves <;> cases moves)
    | _ =>
        simp only [client] at moves
        split at moves <;> cases moves
  · cases choice with
    | others other choice =>
        simp only [client, Option.ite_none_left_eq_some] at moves
        obtain ⟨theirs, moves⟩ := moves
        cases moves
        exact .others party taken theirs steps
    | write thread data =>
        simp only [client, Option.ite_none_right_eq_some] at moves
        obtain ⟨⟨ours, _⟩, moves⟩ := moves
        cases moves
        exact .write party data ours steps
    | writeGuard thread =>
        simp only [client, Option.ite_none_right_eq_some] at moves
        obtain ⟨ours, moves⟩ := moves
        cases moves
        exact .writeGuard party ours steps
    | run thread choice =>
        simp only [client] at moves
        split at moves
        · cases moves
        · cases moves
        · rename_i running
          rw [Option.ite_none_right_eq_some] at moves
          obtain ⟨ours, moves⟩ := moves
          cases moves
          exact .run party taken ours running steps
    | store thread =>
        simp only [client] at moves
        split at moves
        · rw [Option.ite_none_right_eq_some] at moves
          cases moves.2
        · cases moves
    | finish thread =>
        simp only [client] at moves
        split at moves
        · rename_i sequence done
          rw [Option.ite_none_right_eq_some] at moves
          obtain ⟨⟨ours, stored⟩, moves⟩ := moves
          cases moves
          exact .finish party sequence ours done stored steps
        · rename_i outcome failed done
          rw [Option.ite_none_right_eq_some] at moves
          obtain ⟨ours, moves⟩ := moves
          cases moves
          refine .fail party outcome ours done ?_ steps
          cases outcome with
          | sequence sequence => exact absurd rfl (failed sequence)
          | _ => rfl
        · cases moves

/-- What a step does to the numbers published, to the number stored, and to the
numbers that are not stored. -/
inductive Does (threads : ι → Prop) [DecidablePred threads]
    (source : Joint (State ι) (Instance ι)) (choice : Choice ι)
    (target : Joint (State ι) (Instance ι)) : Prop
  | keeps (same : History.written threads target.core.log = History.written threads source.core.log)
      (last : target.own.lastWrittenSequence = source.own.lastWrittenSequence)
      (unstored : ∀ other number,
        Unstored threads target other number ↔ Unstored threads source other number)
  | publishes (thread : ι) (counted : target.core.publishes = source.core.publishes + 1)
      (more : History.written threads target.core.log =
        History.written threads source.core.log ++ [source.core.msg.getSequenceState.nextSequence])
      (last : target.own.lastWrittenSequence = source.own.lastWrittenSequence)
      (unstored : ∀ other number, Unstored threads target other number ↔
        other = thread ∧ number = source.core.msg.getSequenceState.nextSequence ∨
          Unstored threads source other number)
  | stores (thread : ι) (sequence : BitVec 64) (is : choice = .store thread)
      (was : Unstored threads source thread sequence)
      (core : target.core = source.core) (last : target.own.lastWrittenSequence = sequence)
      (unstored : ∀ other number, Unstored threads target other number ↔
        other ≠ thread ∧ Unstored threads source other number)

theorem written_perform (state : State ι) (party : ι) {act : Act}
    (quiet : threads party → ∀ message, act.event ≠ some (.published message)) :
    History.written threads (state.perform party act).log = History.written threads state.log := by
  rw [State.perform_log, History.written, History.written, List.filterMap_append]
  cases event : act.event with
  | none => exact List.append_nil _
  | some event' =>
      cases event' with
      | published message =>
          by_cases ours : threads party
          · exact absurd event (quiet ours message)
          · simp [ours]
      | _ => exact List.append_nil _

/-- What a party is going to return after a step of another one. -/
theorem returning_of_ne {source target : State ι} {party other : ι} {choice : RsIpc.Choice}
    (step : source.step (party, choice) = some target) (ne : other ≠ party) :
    (target.pc other).returning = (source.pc other).returning :=
  State.view_of_step Pc.returning WaitSite.returning_resume step ne

/-- A step of the memory that gives its party no number and takes none away. -/
theorem Does.quiet {source target : Joint (State ι) (Instance ι)} {choice : Choice ι}
    {party : ι} {taken : RsIpc.Choice} (step : source.core.step (party, taken) = some target.core)
    (same : History.written threads target.core.log = History.written threads source.core.log)
    (kept : ∀ number, Unstored threads target party number ↔ Unstored threads source party number)
    (last : target.own.lastWrittenSequence = source.own.lastWrittenSequence)
    (stored : ∀ other, other ≠ party → target.own.stored other = source.own.stored other) :
    Does threads source choice target := by
  refine .keeps same last ?_
  intro other number
  by_cases here : other = party
  · subst here
    exact kept number
  · unfold Unstored
    rw [returning_of_ne step here, stored other here]

/-- A call that begins or ends has no number to store. -/
theorem Does.idle {source target : Joint (State ι) (Instance ι)} {choice : Choice ι}
    {thread : ι} {taken : RsIpc.Choice} {pc : Pc}
    (step : source.core.step (thread, taken) = some target.core)
    (goes : target.core = source.core.perform thread (.goto pc)) (empty : pc.returning = none)
    (before : ∀ number, ¬ Unstored threads source thread number)
    (last : target.own.lastWrittenSequence = source.own.lastWrittenSequence)
    (stored : ∀ other, other ≠ thread → target.own.stored other = source.own.stored other) :
    Does threads source choice target := by
  refine .quiet step ?_ ?_ last stored
  · rw [goes]
    exact written_perform source.core thread fun _ => nofun
  · intro number
    refine iff_of_false ?_ (before number)
    rintro ⟨_, returning, _⟩
    rw [goes, State.perform_pc_self] at returning
    exact absurd (empty.symm.trans returning) nofun

theorem Instance.mark_of_ne (own : Instance ι) {thread other : ι} (ne : other ≠ thread)
    (stored : Bool) : own.mark thread stored other = own.stored other :=
  if_neg ne

theorem does_of_step {source target : Joint (State ι) (Instance ι)} {choice : Choice ι}
    (step : (system threads targetRead consumers).step source choice = some target)
    (ending : ∀ thread, threads thread → source.own.stored thread = true →
      ∃ sequence, source.core.pc thread = .done (.sequence sequence)) : Does threads source choice target := by
  cases moves_of_step step with
  | others party choice theirs taken =>
      refine .quiet taken ?_ ?_ rfl fun _ _ => rfl
      · obtain ⟨act, next, rfl⟩ := State.step_eq_some_iff.mp taken
        exact written_perform source.core party fun ours => absurd ours theirs
      · exact fun _ => iff_of_false (fun holds => theirs holds.1) fun holds => theirs holds.1
  | write thread data ours taken =>
      obtain ⟨act, next, rfl⟩ := State.step_eq_some_iff.mp taken
      obtain ⟨idle, rfl⟩ := next_invoke next
      refine .idle taken rfl rfl ?_ rfl fun _ _ => rfl
      rintro number ⟨_, returning, _⟩
      rw [idle] at returning
      cases returning
  | writeGuard thread ours taken =>
      obtain ⟨act, next, rfl⟩ := State.step_eq_some_iff.mp taken
      obtain ⟨idle, rfl⟩ := next_invoke next
      refine .idle taken rfl rfl ?_ rfl fun _ _ => rfl
      rintro number ⟨_, returning, _⟩
      rw [idle] at returning
      cases returning
  | run thread choice ours running taken =>
      obtain ⟨act, next, rfl⟩ := State.step_eq_some_iff.mp taken
      rcases (next_takes next).returning_kept running with
        ⟨size, empty, event, returning⟩ | ⟨quiet, kept⟩
      · have unstored : source.own.stored thread = false := by
          cases stored : source.own.stored thread with
          | false => rfl
          | true =>
              obtain ⟨sequence, done⟩ := ending thread ours stored
              exact absurd done (running _)
        refine .publishes thread ?_ ?_ rfl ?_
        · simp [State.publishes, event, History.published]
        · simp [History.written, event, ours, SharedMessage.message]
        · intro other number
          by_cases here : other = thread
          · subst here
            simp [Unstored, ours, returning, empty, unstored, SharedMessage.message, eq_comm]
          · simp [Unstored, returning_of_ne taken here, here]
      · refine .quiet taken (written_perform source.core thread fun _ => quiet) ?_ rfl fun _ _ => rfl
        intro number
        simp only [Unstored, State.perform_pc_self, kept]
  | store thread sequence ours done unstored =>
      refine .stores thread sequence rfl ⟨ours, by rw [done]; rfl, unstored⟩ rfl rfl ?_
      intro other number
      by_cases here : other = thread
      · simp [Unstored, Instance.mark, here]
      · simp [Unstored, Instance.mark, here]
  | finish thread sequence ours done stored taken =>
      obtain ⟨act, next, rfl⟩ := State.step_eq_some_iff.mp taken
      rw [done] at next
      cases next
      refine .idle taken rfl rfl ?_ rfl fun other ne => source.own.mark_of_ne ne false
      rintro number ⟨_, _, unstored⟩
      rw [stored] at unstored
      cases unstored
  | fail thread outcome ours done none taken =>
      obtain ⟨act, next, rfl⟩ := State.step_eq_some_iff.mp taken
      rw [done] at next
      cases next
      refine .idle taken rfl rfl ?_ rfl fun _ _ => rfl
      rintro number ⟨_, returning, _⟩
      rw [done] at returning
      cases none.symm.trans returning

/-- A finished call waits for its party. -/
theorem done_of_ne {source target : State ι} {party other : ι} {choice : RsIpc.Choice}
    {outcome : Outcome} (step : source.step (party, choice) = some target) (ne : other ≠ party)
    (done : source.pc other = .done outcome) : target.pc other = .done outcome := by
  obtain ⟨act, _, rfl⟩ := State.step_eq_some_iff.mp step
  rw [State.perform_pc_of_ne source ne, done]
  cases act.effect <;> rfl

/-- A call that has stored its number is about to return it. -/
theorem ending_of_stored {ok : StepCondition (Joint (State ι) (Instance ι)) (Choice ι)}
    {state : Joint (State ι) (Instance ι)}
    (reachable : (system threads targetRead consumers).ReachableVia ok state) (thread : ι)
    (ours : threads thread) (stored : state.own.stored thread = true) :
    ∃ sequence, state.core.pc thread = .done (.sequence sequence) := by
  refine reachable.invariant (fun state => ∀ thread, threads thread →
    state.own.stored thread = true → ∃ sequence, state.core.pc thread = .done (.sequence sequence))
    ?_ ?_ thread ours stored
  · rintro state ⟨_, own⟩ thread _ stored
    rw [own] at stored
    cases stored
  · intro source choice target _ ending step _ other ours stored
    have keeps : ∀ {party taken}, source.core.step (party, taken) = some target.core →
        source.own.stored other = true →
          (∀ sequence, source.core.pc party ≠ .done (.sequence sequence)) →
            ∃ sequence, target.core.pc other = .done (.sequence sequence) := by
      intro party taken step stored running
      obtain ⟨sequence, done⟩ := ending other ours stored
      have ne : other ≠ party := by
        rintro rfl
        exact running sequence done
      exact ⟨sequence, done_of_ne step ne done⟩
    cases moves_of_step step with
    | others party choice theirs taken =>
        obtain ⟨sequence, done⟩ := ending other ours stored
        have ne : other ≠ party := fun same => theirs (same ▸ ours)
        exact ⟨sequence, done_of_ne taken ne done⟩
    | write thread data _ taken | writeGuard thread _ taken =>
        obtain ⟨act, next, _⟩ := State.step_eq_some_iff.mp taken
        refine keeps taken stored fun sequence done => ?_
        exact absurd ((next_invoke next).1.symm.trans done) nofun
    | run thread choice _ running taken => exact keeps taken stored fun _ => running _
    | store thread sequence _ done unstored =>
        by_cases here : other = thread
        · exact ⟨sequence, here ▸ done⟩
        · exact ending other ours ((source.own.mark_of_ne here true).symm.trans stored)
    | finish thread sequence _ done _ taken =>
        by_cases here : other = thread
        · exact absurd ((if_pos here).symm.trans stored) nofun
        · obtain ⟨number, done⟩ :=
            ending other ours ((source.own.mark_of_ne here false).symm.trans stored)
          exact ⟨number, done_of_ne taken here done⟩
    | fail thread outcome _ done none taken =>
        refine keeps taken stored fun sequence other => ?_
        rw [done] at other
        cases other
        cases none

/-! ## The numbers of one instance -/

/-- The numbers published, the number stored, and the numbers that are not. -/
def Ordered (threads : ι → Prop) [DecidablePred threads]
    (state : Joint (State ι) (Instance ι)) : Prop :=
  Recorded (History.written threads state.core.log) state.own.lastWrittenSequence 0
    (Unstored threads state)

omit [DecidableEq ι] in
/-- What an instance published is among all that was published. -/
theorem exists_message_of_written {log : List (ι × Event)} {number : BitVec 64}
    (written : number ∈ History.written threads log) :
    ∃ message ∈ History.published log, message.sequence = number := by
  obtain ⟨⟨party, event⟩, mem, found⟩ := List.mem_filterMap.mp written
  cases event with
  | published message =>
      rw [Option.ite_none_right_eq_some] at found
      exact ⟨message, List.mem_filterMap.mpr ⟨_, mem, rfl⟩, Option.some.inj found.2⟩
  | _ => cases found

/-- Until the counter wraps, a publish gets a larger number than all before. -/
theorem getLastD_written_lt {state : State ι}
    (reachable : (RsIpc.system ι targetRead consumers).Reachable state)
    (few : state.publishes < period) :
    (History.written threads state.log).getLastD 0 < state.msg.getSequenceState.nextSequence := by
  have current := currentSequence_eq_numberAfter reachable
  rw [numberAfter_of_lt (Nat.le_of_lt few)] at current
  have next : state.msg.getSequenceState.nextSequence.toNat = state.publishes + 1 := by
    rw [SharedMessage.getSequenceState, toNat_nextSequence (toNat_sequence_ofPacked_lt _)]
    change state.msg.currentSequence.toNat % period + 1 = _
    rw [current, Nat.mod_eq_of_lt few]
  change _ < state.msg.getSequenceState.nextSequence.toNat
  rw [next]
  rcases List.eq_nil_or_concat (History.written threads state.log) with nil | ⟨init, last, concat⟩
  · rw [nil]
    exact Nat.succ_pos _
  · have mem : last ∈ History.written threads state.log := by simp [concat]
    obtain ⟨message, published, number⟩ := exists_message_of_written mem
    obtain ⟨index, bound, rfl⟩ := List.mem_iff_getElem.mp published
    have sequence := published_sequence_eq reachable index bound
    rw [number] at sequence
    rw [concat, List.concat_eq_append, List.getLastD_concat, sequence]
    exact Nat.lt_succ_of_le ((numberAfter_le _).trans bound)

/-- Stores in order keep it, until the counter wraps. -/
theorem Ordered.step {source target : Joint (State ι) (Instance ι)} {choice : Choice ι}
    (reachable : (system threads targetRead consumers).Reachable source)
    (few : source.core.publishes < period) (ordered : Ordered threads source)
    (step : (system threads targetRead consumers).step source choice = some target)
    (inOrder : InOrder threads source choice target) : Ordered threads target := by
  unfold Ordered
  cases does_of_step step (ending_of_stored reachable) with
  | keeps same last unstored =>
      rw [same, last]
      exact Recorded.congr ordered unstored
  | publishes thread counted more last unstored =>
      rw [more, last]
      exact Recorded.take ordered (getLastD_written_lt (System.reachable_core reachable) few) unstored
  | stores thread sequence is was core last unstored =>
      subst is
      rw [core, last]
      refine Recorded.store ordered was ?_ ?_ unstored
      · rintro other ⟨_, returning, _⟩
        exact Option.some.inj (returning.symm.trans was.2.1)
      · rintro other number ne ⟨theirs, returning, notStored⟩
        exact inOrder sequence was.2.1 other theirs ne notStored number returning

theorem publishes_le_of_step {source target : Joint (State ι) (Instance ι)} {choice : Choice ι}
    (step : (system threads targetRead consumers).step source choice = some target) :
    source.core.publishes ≤ target.core.publishes :=
  System.rel_of_joint_step (fun source target => source.publishes ≤ target.publishes)
    (fun _ => Nat.le_refl _) RsIpc.publishes_le_of_step step

theorem ordered_of_inOrder {state : Joint (State ι) (Instance ι)}
    (reachable : (system threads targetRead consumers).ReachableVia (InOrder threads) state)
    (few : state.core.publishes < period) : Ordered threads state := by
  refine reachable.invariant (fun state => state.core.publishes < period → Ordered threads state)
    ?_ ?_ few
  · rintro state ⟨⟨capacity, core⟩, own⟩ _
    unfold Ordered
    rw [core, own]
    refine Recorded.start ?_
    rintro thread sequence ⟨_, returning, _⟩
    rw [core] at returning
    cases returning
  · intro source choice target before ordered step inOrder few
    have fewBefore := Nat.lt_of_le_of_lt (publishes_le_of_step step) few
    exact (ordered fewBefore).step before.reachable fewBefore step inOrder

/-- A store in order does not lower the number stored. -/
theorem Ordered.lastWrittenSequence_le {source target : Joint (State ι) (Instance ι)}
    {choice : Choice ι} (reachable : (system threads targetRead consumers).Reachable source)
    (ordered : Ordered threads source)
    (step : (system threads targetRead consumers).step source choice = some target) :
    source.own.lastWrittenSequence ≤ target.own.lastWrittenSequence := by
  cases does_of_step step (ending_of_stored reachable) with
  | keeps same last unstored =>
      rw [last]
      exact BitVec.le_refl _
  | publishes thread counted more last unstored =>
      rw [last]
      exact BitVec.le_refl _
  | stores thread sequence is was core last unstored =>
      rw [last]
      exact BitVec.le_of_lt (ordered.later was)

/-! ## What the calls returned -/

/-- The calls return the numbers that they published. -/
structure Accounted (threads : ι → Prop) [DecidablePred threads]
    (state : Joint (State ι) (Instance ι)) : Prop where
  returning : ∀ thread number, threads thread → (state.core.pc thread).returning = some number →
    number ∈ History.written threads state.core.log
  returned : ∀ number ∈ state.own.returned, number ∈ History.written threads state.core.log
  all : ∀ number ∈ History.written threads state.core.log, number ∈ state.own.returned ∨
    ∃ thread, threads thread ∧ (state.core.pc thread).returning = some number

omit [DecidableEq ι] in
/-- A step that changes no number keeps the account. -/
theorem Accounted.congr {source target : Joint (State ι) (Instance ι)}
    (accounted : Accounted threads source)
    (same : History.written threads target.core.log = History.written threads source.core.log)
    (returned : target.own.returned = source.own.returned)
    (kept : ∀ thread, threads thread →
      (target.core.pc thread).returning = (source.core.pc thread).returning) :
    Accounted threads target where
  returning := by
    intro thread number ours returning
    rw [same]
    exact accounted.returning thread number ours ((kept thread ours).symm.trans returning)
  returned := by
    rw [same, returned]
    exact accounted.returned
  all := by
    intro number written
    rw [same] at written
    rw [returned]
    rcases accounted.all number written with before | ⟨thread, ours, returning⟩
    · exact .inl before
    · exact .inr ⟨thread, ours, (kept thread ours).trans returning⟩

/-- A step of a thread that changes no number keeps the account. -/
theorem Accounted.goes {source target : Joint (State ι) (Instance ι)} {thread : ι}
    {taken : RsIpc.Choice} {act : Act} (accounted : Accounted threads source)
    (step : source.core.step (thread, taken) = some target.core)
    (goes : target.core = source.core.perform thread act)
    (quiet : ∀ message, act.event ≠ some (.published message))
    (kept : act.pc.returning = (source.core.pc thread).returning)
    (returned : target.own.returned = source.own.returned) : Accounted threads target := by
  refine accounted.congr ?_ returned ?_
  · rw [goes]
    exact written_perform source.core thread fun _ => quiet
  · intro other _
    by_cases here : other = thread
    · rw [here, goes, State.perform_pc_self, kept]
    · exact returning_of_ne step here

theorem Accounted.step {source target : Joint (State ι) (Instance ι)} {choice : Choice ι}
    (accounted : Accounted threads source)
    (step : (system threads targetRead consumers).step source choice = some target) :
    Accounted threads target := by
  cases moves_of_step step with
  | others party choice theirs taken =>
      obtain ⟨act, _, rfl⟩ := State.step_eq_some_iff.mp taken
      refine accounted.congr (written_perform source.core party fun ours => absurd ours theirs) rfl ?_
      exact fun thread ours => returning_of_ne taken fun same => theirs (same ▸ ours)
  | write thread data _ taken | writeGuard thread _ taken =>
      obtain ⟨act, next, rfl⟩ := State.step_eq_some_iff.mp taken
      obtain ⟨idle, rfl⟩ := next_invoke next
      exact accounted.goes taken rfl (fun _ => nofun) (by rw [idle]; rfl) rfl
  | run thread choice ours running taken =>
      obtain ⟨act, next, rfl⟩ := State.step_eq_some_iff.mp taken
      rcases (next_takes next).returning_kept running with
        ⟨size, empty, event, returning⟩ | ⟨quiet, kept⟩
      · have more : History.written threads (source.core.perform thread act).log =
            History.written threads source.core.log ++ [(source.core.msg.message size).sequence] := by
          simp [History.written, event, ours]
        constructor
        · intro other number theirs holds
          rw [more, List.mem_append, List.mem_singleton]
          by_cases here : other = thread
          · right
            rw [here, State.perform_pc_self, returning] at holds
            exact (Option.some.inj holds).symm
          · rw [returning_of_ne taken here] at holds
            exact .inl (accounted.returning other number theirs holds)
        · intro number before
          rw [more]
          exact List.mem_append_left _ (accounted.returned number before)
        · intro number written
          rw [more, List.mem_append, List.mem_singleton] at written
          rcases written with before | rfl
          · rcases accounted.all number before with old | ⟨other, theirs, holds⟩
            · exact .inl old
            · have ne : other ≠ thread := by
                rintro rfl
                exact absurd (empty.symm.trans holds) nofun
              exact .inr ⟨other, theirs, (returning_of_ne taken ne).trans holds⟩
          · exact .inr ⟨thread, ours, by rw [State.perform_pc_self, returning]⟩
      · exact accounted.goes taken rfl quiet kept rfl
  | store thread sequence _ _ _ => exact accounted.congr rfl rfl fun _ _ => rfl
  | finish thread sequence ours done _ taken =>
      obtain ⟨act, next, rfl⟩ := State.step_eq_some_iff.mp taken
      rw [done] at next
      cases next
      have same : History.written threads (source.core.perform thread (.goto .idle)).log =
          History.written threads source.core.log := written_perform source.core thread fun _ _ => nofun
      constructor
      · intro other number theirs holds
        rw [same]
        by_cases here : other = thread
        · rw [here, State.perform_pc_self] at holds
          cases holds
        · rw [returning_of_ne taken here] at holds
          exact accounted.returning other number theirs holds
      · intro number mem
        rw [same]
        rcases List.mem_append.mp mem with before | now
        · exact accounted.returned number before
        · rw [List.mem_singleton] at now
          subst now
          exact accounted.returning thread number ours (by rw [done]; rfl)
      · intro number written
        rw [same] at written
        rcases accounted.all number written with old | ⟨other, theirs, holds⟩
        · exact .inl (List.mem_append_left _ old)
        · by_cases here : other = thread
          · left
            rw [here, done] at holds
            cases holds
            exact List.mem_append_right _ (List.mem_singleton_self _)
          · exact .inr ⟨other, theirs, (returning_of_ne taken here).trans holds⟩
  | fail thread outcome _ done none taken =>
      obtain ⟨act, next, rfl⟩ := State.step_eq_some_iff.mp taken
      rw [done] at next
      cases next
      exact accounted.goes taken rfl (fun _ => nofun) (by rw [done]; exact none.symm) rfl

theorem accounted_of_reachable {ok : StepCondition (Joint (State ι) (Instance ι)) (Choice ι)}
    {state : Joint (State ι) (Instance ι)}
    (reachable : (system threads targetRead consumers).ReachableVia ok state) :
    Accounted threads state := by
  refine reachable.invariant (Accounted threads) ?_ fun _ accounted step _ => accounted.step step
  rintro state ⟨⟨capacity, core⟩, own⟩
  constructor
  · intro thread number _ returning
    rw [core] at returning
    cases returning
  · intro number returned
    rw [own] at returned
    cases returned
  · intro number written
    rw [core] at written
    cases written

/-! ## The newest version -/

omit [DecidableEq ι] in
/-- Once all that was published is stored and returned, the number stored is the
greatest that was returned. -/
theorem newest_of_quiet {state : Joint (State ι) (Instance ι)} (ordered : Ordered threads state)
    (accounted : Accounted threads state)
    (quiet : ∀ thread, threads thread → (state.core.pc thread).returning = none) :
    state.own.Newest := by
  have last : state.own.lastWrittenSequence = (History.written threads state.core.log).getLastD 0 := by
    refine Recorded.stored_eq ordered ?_
    rintro thread number ⟨ours, returning, _⟩
    exact absurd ((quiet thread ours).symm.trans returning) nofun
  constructor
  · intro number returned
    rw [last]
    exact le_getLastD_of_pairwise_lt ordered.increasing (accounted.returned number returned) 0
  · rcases List.eq_nil_or_concat (History.written threads state.core.log) with nil | ⟨init, final, concat⟩
    · right
      rw [last, nil]
      refine ⟨List.eq_nil_iff_forall_not_mem.mpr fun number returned => ?_, rfl⟩
      have written := accounted.returned number returned
      rw [nil] at written
      cases written
    · left
      have mem : final ∈ History.written threads state.core.log := by simp [concat]
      rw [last, concat, List.concat_eq_append, List.getLastD_concat]
      rcases accounted.all final mem with returned | ⟨thread, ours, returning⟩
      · exact returned
      · exact absurd ((quiet thread ours).symm.trans returning) nofun

/-- As long as its calls store in order, the number stored never decreases, and while
no call that has published is still to return, so in particular while no write is in
progress, it is the greatest number that a write returned. -/
theorem last_written_is_newest {state : Joint (State ι) (Instance ι)}
    (reachable : (system threads targetRead consumers).ReachableVia (InOrder threads) state)
    (few : state.core.publishes < period) :
    ((∀ thread, threads thread → (state.core.pc thread).returning = none) → state.own.Newest) ∧
      ∀ choices target, (system threads targetRead consumers).exec state choices = some target →
        (system threads targetRead consumers).StepsMeet (InOrder threads) state choices →
        target.core.publishes < period →
          state.own.lastWrittenSequence ≤ target.own.lastWrittenSequence := by
  constructor
  · exact newest_of_quiet (ordered_of_inOrder reachable few) (accounted_of_reachable reachable)
  · intro choices target run meet fewLater
    refine System.le_of_exec (fun state => state.core.publishes) period
      (fun state => state.own.lastWrittenSequence) publishes_le_of_step ?_ reachable run meet fewLater
    intro source choice target before few step
    exact (ordered_of_inOrder before few).lastWrittenSequence_le before.reachable step

end Steps

/-! ## Two threads of one instance -/

/-- A thread writes one byte and has its number in hand. -/
def writing (thread : Fin 2) (byte : UInt8) : List (Choice (Fin 2)) :=
  .write thread [byte] :: List.replicate 15 (.run thread .go)

/-- Nothing has happened, over memory of one byte. -/
def unwritten : Joint (State (Fin 2)) (Instance (Fin 2)) :=
  ⟨State.fresh (Fin 2) 1 0 0, ⟨0, fun _ => false, []⟩⟩

theorem initial_unwritten : (system (fun _ : Fin 2 => True) 0 0).initial unwritten :=
  ⟨initial_fresh (Fin 2) 1 0 0, rfl⟩

/-- One thread writes and stores, and then the other one does. -/
def writtenInTurn : Joint (State (Fin 2)) (Instance (Fin 2)) :=
  (system (fun _ => True) 0 0).finish unwritten
    (writing 0 7 ++ [.store 0, .finish 0] ++ writing 1 8 ++ [.store 1, .finish 1])
    (by decide +kernel)

theorem writtenInTurn_is_newest :
    writtenInTurn.own.returned = [1, 2] ∧ writtenInTurn.own.Newest := by
  have facts : writtenInTurn.own.returned = [1, 2] ∧ writtenInTurn.core.publishes < period ∧
      ∀ thread, (writtenInTurn.core.pc thread).returning = none := by decide +kernel
  obtain ⟨returned, few, quiet⟩ := facts
  have reachable : (system (fun _ => True) 0 0).ReachableVia (InOrder fun _ => True) writtenInTurn :=
    System.reachableVia_finish initial_unwritten _ (by decide +kernel)
  exact ⟨returned, (last_written_is_newest reachable few).1 fun thread _ => quiet thread⟩

/-- The second thread publishes before the first one stores, and stores first. -/
def writtenAcross : Joint (State (Fin 2)) (Instance (Fin 2)) :=
  (system (fun _ => True) 0 0).finish unwritten
    (writing 0 7 ++ writing 1 8 ++ [.store 1, .finish 1, .store 0, .finish 0])
    (by decide +kernel)

theorem writtenAcross_is_not_newest :
    (system (fun _ => True) 0 0).Reachable writtenAcross ∧
      writtenAcross.core.publishes < period ∧ (∀ thread, writtenAcross.core.pc thread = .idle) ∧
        ¬ writtenAcross.own.Newest := by
  constructor
  · exact System.reachable_finish initial_unwritten _
  · decide +kernel

end WriteSync

end RsIpc
