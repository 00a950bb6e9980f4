import RsIpc.SharedMessage.Sequencing
import RsIpc.SharedMessage.Snapshot
import RsIpc.Transition.Client

/-!
# One reader instance, many threads

`read` and `read_guard` of a `ReadSync` instance load `last_read_sequence`, read
the shared memory with it, and store the number of the guard.  The load and the
store are separate steps, and any number of threads may be between them.
-/

namespace RsIpc

open Protocol Transition SequenceState

universe u

/-! ## Guards in hand -/

/-- The number of the guard that a party has in hand and does not drop yet. -/
def Pc.held : Pc → Option (BitVec 64)
  | .readGuard number => some number
  | _ => none

theorem WaitSite.held_resume (site : WaitSite) (ticket : Nat) :
    site.resume.held = (Pc.parked site ticket).held := by
  cases site <;> rfl

/-- A party gets a guard into its hand by being admitted. -/
theorem Takes.held {msg : SharedMessage} {pc : Pc} {act : Act} (takes : Takes msg pc act)
    {sequence : BitVec 64} (held : act.pc.held = some sequence) :
    msg.currentSequence = sequence ∧ act.event = some (.admitted sequence) ∧
      ∃ lastSeenSeq block, pc = .verify lastSeenSeq block sequence := by
  cases takes with
  | granted lastSeenSeq block number down same =>
      cases held
      exact ⟨same, rfl, lastSeenSeq, block, rfl⟩
  | invoke operation => cases operation <;> cases held
  | waitReturns site ticket spins changed | wakeUp site ticket => cases site <;> cases held
  | notify site | wake site => cases site <;> cases held
  | update site policy run =>
      cases site with
      | release number =>
          simp only [UpdateSite.after] at held
          split at held <;> cases held
      | _ => cases held
  | _ => cases held

namespace ReadSync

/-- The instance: the last number stored, and which of its calls that have a guard
have stored its number. -/
structure Instance (ι : Type u) where
  lastReadSequence : BitVec 64
  stored : ι → Bool

/-- The steps of the whole: those of parties that are not threads of the instance,
and what a thread of the instance does. -/
inductive Choice (ι : Type u)
  | others (party : ι) (choice : RsIpc.Choice)
  | read (thread : ι) (block : Bool)
  | run (thread : ι) (spurious : Bool)
  | store (thread : ι)
  | drop (thread : ι)
  deriving DecidableEq

variable {ι : Type u} [DecidableEq ι]

/-- The store of a thread has been made, or a new call begins without it. -/
def Instance.mark (own : Instance ι) (thread : ι) (stored : Bool) : ι → Bool :=
  fun other => if other = thread then stored else own.stored other

/-- `read_sync` and `read_guard`.  A call begins with the load, and after the store
the guard is dropped, by `read_sync` itself or whenever its holder does. -/
def client (threads : ι → Prop) [DecidablePred threads] :
    Client (State ι) (ι × RsIpc.Choice) (Instance ι) (Choice ι) :=
  fun core own choice =>
    match choice with
    | .others party choice => if threads party then none else some (some (party, choice), own)
    | .read thread block =>
        if threads thread then
          some (some (thread, .invoke (.read own.lastReadSequence block)),
            { own with stored := own.mark thread false })
        else none
    | .run thread spurious =>
        if threads thread then some (some (thread, if spurious then .spurious else .go), own)
        else none
    | .store thread =>
        match core.pc thread with
        | .readGuard number =>
            if threads thread ∧ own.stored thread = false then
              some (none, { lastReadSequence := number, stored := own.mark thread true })
            else none
        | _ => none
    | .drop thread =>
        if threads thread ∧ own.stored thread = true then some (some (thread, .drop), own) else none

/-- An instance over memory that other parties use as well. -/
def system (threads : ι → Prop) [DecidablePred threads] (targetRead consumers : BitVec 16) :
    System (Joint (State ι) (Instance ι)) (Choice ι) :=
  (RsIpc.system ι targetRead consumers).joint (client threads) ⟨0, fun _ => false⟩

/-- A thread of the instance holds a guard with this number and has not stored it. -/
def Unstored (threads : ι → Prop) (state : Joint (State ι) (Instance ι)) (thread : ι)
    (sequence : BitVec 64) : Prop :=
  threads thread ∧ (state.core.pc thread).held = some sequence ∧ state.own.stored thread = false

/-- Whenever a call of the instance is admitted, `last_read_sequence` is another
number than the current one, and no other call has a guard with the current number
that it has not stored. -/
def Anew (threads : ι → Prop) : StepCondition (Joint (State ι) (Instance ι)) (Choice ι) :=
  fun source choice target =>
    match choice with
    | .run thread _ => ∀ sequence ∈ (target.core.pc thread).held,
        source.own.lastReadSequence ≠ sequence ∧
          ∀ other, ¬ Unstored threads source other sequence
    | _ => True

/-- Whenever a call stores its number, no other call has a guard with a number as
small that it has not stored. -/
def InOrder (threads : ι → Prop) : StepCondition (Joint (State ι) (Instance ι)) (Choice ι) :=
  fun source choice _ =>
    match choice with
    | .store thread => ∀ sequence ∈ (source.core.pc thread).held,
        ∀ other, threads other → other ≠ thread → source.own.stored other = false →
          ∀ number ∈ (source.core.pc other).held, sequence < number
    | _ => True

def Orderly (threads : ι → Prop) : StepCondition (Joint (State ι) (Instance ι)) (Choice ι) :=
  fun source choice target =>
    Anew threads source choice target ∧ InOrder threads source choice target

omit [DecidableEq ι] in
instance (threads : ι → Prop) [DecidablePred threads] (state : Joint (State ι) (Instance ι))
    (thread : ι) (sequence : BitVec 64) : Decidable (Unstored threads state thread sequence) :=
  inferInstanceAs (Decidable (_ ∧ _))

omit [DecidableEq ι] in
instance [Fintype ι] (threads : ι → Prop) [DecidablePred threads]
    (source : Joint (State ι) (Instance ι)) (choice : Choice ι)
    (target : Joint (State ι) (Instance ι)) : Decidable (Anew threads source choice target) :=
  match choice with
  | .run thread _ => Option.decidableForallMem (target.core.pc thread).held
  | .others _ _ | .read _ _ | .store _ | .drop _ => .isTrue trivial

instance [Fintype ι] (threads : ι → Prop) [DecidablePred threads]
    (source : Joint (State ι) (Instance ι)) (choice : Choice ι)
    (target : Joint (State ι) (Instance ι)) : Decidable (InOrder threads source choice target) :=
  have (sequence : BitVec 64) (other : ι) :
      Decidable (∀ number ∈ (source.core.pc other).held, sequence < number) :=
    Option.decidableForallMem (source.core.pc other).held
  match choice with
  | .store thread => Option.decidableForallMem (source.core.pc thread).held
  | .others _ _ | .read _ _ | .run _ _ | .drop _ => .isTrue trivial

instance [Fintype ι] (threads : ι → Prop) [DecidablePred threads]
    (source : Joint (State ι) (Instance ι)) (choice : Choice ι)
    (target : Joint (State ι) (Instance ι)) : Decidable (Orderly threads source choice target) :=
  inferInstanceAs (Decidable (_ ∧ _))

/-! ## The steps -/

section Steps

variable {threads : ι → Prop} [DecidablePred threads] {targetRead consumers : BitVec 16}

/-- What each choice does. -/
inductive Moves (threads : ι → Prop) (source : Joint (State ι) (Instance ι)) :
    Choice ι → Joint (State ι) (Instance ι) → Prop
  | others (party : ι) (choice : RsIpc.Choice) (theirs : ¬ threads party) {core : State ι}
      (taken : source.core.step (party, choice) = some core) :
      Moves threads source (.others party choice) ⟨core, source.own⟩
  | read (thread : ι) (block : Bool) (ours : threads thread) {core : State ι}
      (taken : source.core.step (thread, .invoke (.read source.own.lastReadSequence block)) =
        some core) :
      Moves threads source (.read thread block)
        ⟨core, { source.own with stored := source.own.mark thread false }⟩
  | run (thread : ι) (spurious : Bool) (ours : threads thread) {core : State ι}
      (taken : source.core.step (thread, if spurious then .spurious else .go) = some core) :
      Moves threads source (.run thread spurious) ⟨core, source.own⟩
  | store (thread : ι) (sequence : BitVec 64) (ours : threads thread)
      (holds : source.core.pc thread = .readGuard sequence)
      (unstored : source.own.stored thread = false) :
      Moves threads source (.store thread) ⟨source.core, ⟨sequence, source.own.mark thread true⟩⟩
  | drop (thread : ι) (ours : threads thread) (stored : source.own.stored thread = true)
      {core : State ι} (taken : source.core.step (thread, .drop) = some core) :
      Moves threads source (.drop thread) ⟨core, source.own⟩

theorem moves_of_step {source target : Joint (State ι) (Instance ι)} {choice : Choice ι}
    (step : (system threads targetRead consumers).step source choice = some target) :
    Moves threads source choice target := by
  obtain ⟨targetCore, targetOwn⟩ := target
  rcases System.joint_step step with ⟨moves, core⟩ | ⟨⟨party, taken⟩, moves, steps⟩
  · change targetCore = source.core at core
    subst core
    cases choice with
    | store thread =>
        simp only [client] at moves
        split at moves
        · rename_i sequence holds
          rw [Option.ite_none_right_eq_some] at moves
          obtain ⟨⟨ours, unstored⟩, moves⟩ := moves
          cases moves
          exact .store thread sequence ours holds unstored
        · cases moves
    | _ =>
        simp only [client] at moves
        split at moves <;> cases moves
  · cases choice with
    | others other choice =>
        simp only [client, Option.ite_none_left_eq_some] at moves
        obtain ⟨theirs, moves⟩ := moves
        cases moves
        exact .others party taken theirs steps
    | read thread block =>
        simp only [client, Option.ite_none_right_eq_some] at moves
        obtain ⟨ours, moves⟩ := moves
        cases moves
        exact .read party block ours steps
    | run thread spurious =>
        simp only [client, Option.ite_none_right_eq_some] at moves
        obtain ⟨ours, moves⟩ := moves
        cases moves
        exact .run party spurious ours steps
    | store thread =>
        simp only [client] at moves
        split at moves
        · rw [Option.ite_none_right_eq_some] at moves
          cases moves.2
        · cases moves
    | drop thread =>
        simp only [client, Option.ite_none_right_eq_some] at moves
        obtain ⟨⟨ours, stored⟩, moves⟩ := moves
        cases moves
        exact .drop party ours stored steps

/-- What a step does to the guards' numbers, to the number stored, and to the guards
whose numbers are not stored. -/
inductive Does (threads : ι → Prop) [DecidablePred threads]
    (source : Joint (State ι) (Instance ι)) (choice : Choice ι)
    (target : Joint (State ι) (Instance ι)) : Prop
  | keeps (same : History.admitted threads target.core.log = History.admitted threads source.core.log)
      (last : target.own.lastReadSequence = source.own.lastReadSequence)
      (unstored : ∀ other number,
        Unstored threads target other number ↔ Unstored threads source other number)
  | admits (thread : ι) (spurious : Bool) (is : choice = .run thread spurious)
      (held : (target.core.pc thread).held = some source.core.msg.currentSequence)
      (more : History.admitted threads target.core.log =
        History.admitted threads source.core.log ++ [source.core.msg.currentSequence])
      (last : target.own.lastReadSequence = source.own.lastReadSequence)
      (unstored : ∀ other number, Unstored threads target other number ↔
        other = thread ∧ number = source.core.msg.currentSequence ∨
          Unstored threads source other number)
  | stores (thread : ι) (sequence : BitVec 64) (is : choice = .store thread)
      (was : Unstored threads source thread sequence)
      (core : target.core = source.core) (last : target.own.lastReadSequence = sequence)
      (unstored : ∀ other number, Unstored threads target other number ↔
        other ≠ thread ∧ Unstored threads source other number)

/-- What a party has in hand after a step of another one. -/
theorem held_of_ne {source target : State ι} {party other : ι} {choice : RsIpc.Choice}
    (step : source.step (party, choice) = some target) (ne : other ≠ party) :
    (target.pc other).held = (source.pc other).held :=
  State.view_of_step Pc.held WaitSite.held_resume step ne

/-- A step after which its party has nothing in hand admits nobody. -/
theorem admitted_of_step {source target : State ι} {party : ι} {choice : RsIpc.Choice}
    (step : source.step (party, choice) = some target)
    (quiet : threads party → (target.pc party).held = none) :
    History.admitted threads target.log = History.admitted threads source.log := by
  obtain ⟨act, next, rfl⟩ := State.step_eq_some_iff.mp step
  rcases admitStep_or_same threads next with ⟨_, _, ours, _, rfl⟩ | same
  · have none := quiet ours
    rw [State.perform_pc_self] at none
    cases none
  · exact same

/-- A step of the memory that no thread has a guard in hand at keeps everything. -/
theorem Does.quiet {source target : Joint (State ι) (Instance ι)} {choice : Choice ι}
    {party : ι} {taken : RsIpc.Choice} (step : source.core.step (party, taken) = some target.core)
    (before : ∀ number, ¬ Unstored threads source party number)
    (after : threads party → (target.core.pc party).held = none)
    (last : target.own.lastReadSequence = source.own.lastReadSequence)
    (stored : ∀ other, other ≠ party → target.own.stored other = source.own.stored other) :
    Does threads source choice target := by
  refine .keeps (admitted_of_step step after) last ?_
  intro other number
  by_cases here : other = party
  · subst here
    constructor
    · rintro ⟨ours, holds, _⟩
      rw [after ours] at holds
      cases holds
    · intro holds
      exact absurd holds (before number)
  · unfold Unstored
    rw [held_of_ne step here, stored other here]

/-- A thread has nothing in hand until it is admitted, and takes no step of the memory
with a guard in hand but the drop. -/
theorem held_of_run {msg : SharedMessage} {pc : Pc} {spurious : Bool} {act : Act}
    (next : next msg (if spurious then .spurious else .go) pc = some act) : pc.held = none := by
  cases pc with
  | readGuard sequence => cases spurious <;> cases next
  | _ => rfl

/-- Setting the mark of one thread. -/
theorem Instance.mark_of_ne (own : Instance ι) {thread other : ι} (ne : other ≠ thread)
    (stored : Bool) : own.mark thread stored other = own.stored other :=
  if_neg ne

theorem does_of_step {source target : Joint (State ι) (Instance ι)} {choice : Choice ι}
    (step : (system threads targetRead consumers).step source choice = some target)
    (calling : ∀ thread, threads thread → (source.core.pc thread).lastSeen ≠ none →
      source.own.stored thread = false) : Does threads source choice target := by
  cases moves_of_step step with
  | others party choice theirs taken =>
      exact .quiet taken (fun _ holds => absurd holds.1 theirs) (fun ours => absurd ours theirs) rfl
        fun _ _ => rfl
  | read thread block ours taken =>
      obtain ⟨act, next, rfl⟩ := State.step_eq_some_iff.mp taken
      obtain ⟨idle, rfl⟩ := next_invoke next
      refine .quiet taken ?_ ?_ rfl fun other ne => source.own.mark_of_ne ne false
      · rintro number ⟨_, held, _⟩
        rw [idle] at held
        cases held
      · intro _
        rw [State.perform_pc_self]
        rfl
  | run thread spurious ours taken =>
      obtain ⟨act, next, rfl⟩ := State.step_eq_some_iff.mp taken
      have empty := held_of_run next
      have after : ((source.core.perform thread act).pc thread).held = act.pc.held := by
        rw [State.perform_pc_self]
      cases held : act.pc.held with
      | none =>
          refine .quiet taken ?_ (fun _ => after.trans held) rfl fun _ _ => rfl
          rintro number ⟨_, holds, _⟩
          rw [empty] at holds
          cases holds
      | some sequence =>
          obtain ⟨rfl, event, lastSeenSeq, block, at_⟩ := (next_takes next).held held
          have unstored : source.own.stored thread = false := by
            refine calling thread ours ?_
            rw [at_]
            exact Option.some_ne_none _
          refine .admits thread spurious rfl (after.trans held) ?_ rfl ?_
          · rw [State.perform_log, event, History.admitted_append]
            simp [History.admitted, ours]
          · intro other number
            by_cases here : other = thread
            · subst here
              simp [Unstored, held, empty, unstored, ours, eq_comm]
            · simp [Unstored, held_of_ne taken here, here]
  | store thread sequence ours holds unstored =>
      refine .stores thread sequence rfl ⟨ours, by rw [holds]; rfl, unstored⟩ rfl rfl ?_
      intro other number
      by_cases here : other = thread
      · simp [Unstored, Instance.mark, here]
      · simp [Unstored, Instance.mark, here]
  | drop thread ours stored taken =>
      obtain ⟨act, next, rfl⟩ := State.step_eq_some_iff.mp taken
      refine .quiet taken ?_ ?_ rfl fun _ _ => rfl
      · rintro number ⟨_, _, unstored⟩
        rw [stored] at unstored
        cases unstored
      · intro _
        rw [State.perform_pc_self]
        rcases next_drop next with ⟨sequence, _, rfl⟩ | ⟨_, rfl⟩ <;> rfl

/-! ## The numbers of one instance -/

/-- A thread that is in a call of `read` has not stored its number. -/
theorem unstored_of_calling {ok : StepCondition (Joint (State ι) (Instance ι)) (Choice ι)}
    {state : Joint (State ι) (Instance ι)}
    (reachable : (system threads targetRead consumers).ReachableVia ok state) (thread : ι)
    (ours : threads thread) (calling : (state.core.pc thread).lastSeen ≠ none) :
    state.own.stored thread = false := by
  refine reachable.invariant (fun state => ∀ thread, threads thread →
    (state.core.pc thread).lastSeen ≠ none → state.own.stored thread = false) ?_ ?_
    thread ours calling
  · rintro state ⟨_, own⟩ thread _ _
    rw [own]
  · rintro source choice target _ unstored step _ other ours calling
    obtain ⟨lastSeenSeq, seen⟩ := Option.ne_none_iff_exists'.mp calling
    cases moves_of_step step with
    | others party choice theirs taken =>
        rcases lastSeen_of_step taken seen with before | ⟨rfl, _, block, rfl⟩
        · exact unstored other ours (by simp [before])
        · exact absurd ours theirs
    | read thread block _ taken =>
        by_cases here : other = thread
        · exact if_pos here
        · rcases lastSeen_of_step taken seen with before | ⟨same, _, _, _⟩
          · exact (source.own.mark_of_ne here false).trans (unstored other ours (by simp [before]))
          · exact absurd same here
    | run thread spurious _ taken =>
        rcases lastSeen_of_step taken seen with before | ⟨_, _, block, is⟩
        · exact unstored other ours (by simp [before])
        · cases spurious <;> cases is
    | store thread sequence _ holds _ =>
        have ne : other ≠ thread := by
          rintro rfl
          rw [holds] at seen
          cases seen
        exact (source.own.mark_of_ne ne true).trans (unstored other ours calling)
    | drop thread _ stored taken =>
        rcases lastSeen_of_step taken seen with before | ⟨_, _, block, is⟩
        · exact unstored other ours (by simp [before])
        · cases is

/-- The guards' numbers, the number stored, and the numbers that are not. -/
def Ordered (threads : ι → Prop) [DecidablePred threads]
    (state : Joint (State ι) (Instance ι)) : Prop :=
  Recorded (History.admitted threads state.core.log) state.own.lastReadSequence 0
    (Unstored threads state)

/-- A call that is admitted anew gets a larger number than all before. -/
theorem Ordered.larger {state : Joint (State ι) (Instance ι)}
    (reachable : (RsIpc.system ι targetRead consumers).Reachable state.core)
    (few : state.core.publishes < period) (ordered : Ordered threads state)
    (new : state.own.lastReadSequence ≠ state.core.msg.currentSequence)
    (alone : ∀ other, ¬ Unstored threads state other state.core.msg.currentSequence) :
    History.lastAdmitted threads state.core.log < state.core.msg.currentSequence := by
  have lower := lastAdmitted_le_currentSequence threads reachable (Nat.le_of_lt few)
  refine BitVec.lt_of_le_ne lower fun same => ?_
  rcases ordered.last with stored | ⟨other, holds⟩
  · exact new (stored.symm.trans same)
  · exact alone other (same ▸ holds)

/-- Orderly calls keep it, until the counter wraps. -/
theorem Ordered.step {source target : Joint (State ι) (Instance ι)} {choice : Choice ι}
    (reachable : (system threads targetRead consumers).Reachable source)
    (few : source.core.publishes < period) (ordered : Ordered threads source)
    (step : (system threads targetRead consumers).step source choice = some target)
    (orderly : Orderly threads source choice target) : Ordered threads target := by
  unfold Ordered
  cases does_of_step step (unstored_of_calling reachable) with
  | keeps same last unstored =>
      rw [same, last]
      exact Recorded.congr ordered unstored
  | admits thread spurious is held more last unstored =>
      subst is
      obtain ⟨new, alone⟩ := orderly.1 _ held
      rw [more, last]
      exact Recorded.take ordered
        (ordered.larger (System.reachable_core reachable) few new alone) unstored
  | stores thread sequence is was core last unstored =>
      subst is
      rw [core, last]
      refine Recorded.store ordered was ?_ ?_ unstored
      · rintro other ⟨_, held, _⟩
        exact Option.some.inj (held.symm.trans was.2.1)
      · rintro other number ne ⟨theirs, held, notStored⟩
        exact orderly.2 sequence was.2.1 other theirs ne notStored number held

theorem publishes_le_of_step {source target : Joint (State ι) (Instance ι)} {choice : Choice ι}
    (step : (system threads targetRead consumers).step source choice = some target) :
    source.core.publishes ≤ target.core.publishes :=
  System.rel_of_joint_step (fun source target => source.publishes ≤ target.publishes)
    (fun _ => Nat.le_refl _) RsIpc.publishes_le_of_step step

theorem ordered_of_orderly {state : Joint (State ι) (Instance ι)}
    (reachable : (system threads targetRead consumers).ReachableVia (Orderly threads) state)
    (few : state.core.publishes < period) : Ordered threads state := by
  refine reachable.invariant (fun state => state.core.publishes < period → Ordered threads state)
    ?_ ?_ few
  · rintro state ⟨⟨capacity, core⟩, own⟩ _
    unfold Ordered
    rw [core, own]
    refine Recorded.start ?_
    rintro thread sequence ⟨_, held, _⟩
    rw [core] at held
    cases held
  · intro source choice target before ordered step orderly few
    have fewBefore := Nat.lt_of_le_of_lt (publishes_le_of_step step) few
    exact (ordered fewBefore).step before.reachable fewBefore step orderly

/-- An orderly step does not lower the number stored. -/
theorem Ordered.lastReadSequence_le {source target : Joint (State ι) (Instance ι)}
    {choice : Choice ι} (reachable : (system threads targetRead consumers).Reachable source)
    (ordered : Ordered threads source)
    (step : (system threads targetRead consumers).step source choice = some target) :
    source.own.lastReadSequence ≤ target.own.lastReadSequence := by
  cases does_of_step step (unstored_of_calling reachable) with
  | keeps same last unstored =>
      rw [last]
      exact BitVec.le_refl _
  | admits thread spurious is held more last unstored =>
      rw [last]
      exact BitVec.le_refl _
  | stores thread sequence is was core last unstored =>
      rw [last]
      exact BitVec.le_of_lt (ordered.later was)

/-! ## Bounded runs -/

/-- At most 65535 registrations of `read` are outstanding, and calls are admitted anew. -/
def AnewBounded [Fintype ι] (threads : ι → Prop) :
    StepCondition (Joint (State ι) (Instance ι)) (Choice ι) :=
  fun source choice target => Anew threads source choice target ∧
    target.core.registrations ≤ 65535

omit [DecidableEq ι] [DecidablePred threads] in
theorem Unstored.guard {state : Joint (State ι) (Instance ι)} {thread : ι}
    {sequence : BitVec 64} (unstored : Unstored threads state thread sequence) :
    (state.core.pc thread).guard = some sequence := by
  obtain ⟨_, held, _⟩ := unstored
  cases pc : state.core.pc thread with
  | readGuard number =>
      rw [pc] at held
      exact held
  | _ =>
      rw [pc] at held
      cases held

/-- In a bounded run every number that is not stored is the current one. -/
theorem Unstored.currentSequence [Fintype ι] {state : Joint (State ι) (Instance ι)}
    (reachable : (system threads targetRead consumers).ReachableVia (AnewBounded threads) state)
    {thread : ι} {sequence : BitVec 64} (unstored : Unstored threads state thread sequence) :
    state.core.msg.currentSequence = sequence := by
  have bounded : (RsIpc.system ι targetRead consumers).ReachableVia Bounded state.core :=
    System.reachableVia_core reachable fun _ _ _ _ ok => ok.2
  exact currentSequence_of_guard bounded unstored.guard

/-- In a bounded run whose calls are admitted anew, one number at a time is not stored. -/
theorem unstored_unique [Fintype ι] {state : Joint (State ι) (Instance ι)}
    (reachable : (system threads targetRead consumers).ReachableVia (AnewBounded threads) state)
    {first second : ι} {number other : BitVec 64} (firstHolds : Unstored threads state first number)
    (secondHolds : Unstored threads state second other) : first = second := by
  refine reachable.invariant (fun state => ∀ first second number other,
    Unstored threads state first number → Unstored threads state second other → first = second)
    ?_ ?_ first second number other firstHolds secondHolds
  · rintro state ⟨⟨capacity, core⟩, _⟩ first second number other ⟨_, held, _⟩ _
    rw [core] at held
    cases held
  · intro source choice target before unique step ok first second number other firstHolds secondHolds
    cases does_of_step step (unstored_of_calling before) with
    | keeps _ _ unstored =>
        exact unique first second number other ((unstored first number).mp firstHolds)
          ((unstored second other).mp secondHolds)
    | admits thread spurious is held _ _ unstored =>
        subst is
        have onlyThread : ∀ {holder number}, Unstored threads target holder number →
            holder = thread := by
          intro holder number holds
          rcases (unstored holder number).mp holds with ⟨here, _⟩ | earlier
          · exact here
          · have current := earlier.currentSequence before
            exact absurd (current ▸ earlier) ((ok.1 _ held).2 holder)
        exact (onlyThread firstHolds).trans (onlyThread secondHolds).symm
    | stores _ _ _ _ _ _ unstored =>
        exact unique first second number other ((unstored first number).mp firstHolds).2
          ((unstored second other).mp secondHolds).2

/-- While the active readers are counted right, calls that are admitted anew store
their numbers in order as well. -/
theorem orderly_of_anewBounded [Fintype ι] {state : Joint (State ι) (Instance ι)}
    (reachable : (system threads targetRead consumers).ReachableVia (AnewBounded threads) state) :
    (system threads targetRead consumers).ReachableVia (Orderly threads) state := by
  refine reachable.refine fun {source choice target} before step ok => ⟨ok.1, ?_⟩
  cases choice with
  | store thread =>
      intro sequence held other theirs ne notStored number holds
      cases moves_of_step step with
      | store _ _ ours _ unstored =>
          exact absurd (unstored_unique before ⟨theirs, holds, notStored⟩ ⟨ours, held, unstored⟩) ne
  | _ => trivial

/-! ## At most once -/

/-- As long as its calls are orderly, an instance is handed no number twice, and the
number stored does not decrease. -/
theorem delivered_at_most_once {state : Joint (State ι) (Instance ι)}
    (reachable : (system threads targetRead consumers).ReachableVia (Orderly threads) state)
    (few : state.core.publishes < period) :
    (History.admitted threads state.core.log).Nodup ∧
      ∀ choices target, (system threads targetRead consumers).exec state choices = some target →
        (system threads targetRead consumers).StepsMeet (Orderly threads) state choices →
        target.core.publishes < period →
          state.own.lastReadSequence ≤ target.own.lastReadSequence := by
  constructor
  · exact (ordered_of_orderly reachable few).increasing.imp BitVec.ne_of_lt
  · intro choices target run meet fewLater
    refine System.le_of_exec (fun state => state.core.publishes) period
      (fun state => state.own.lastReadSequence) publishes_le_of_step ?_ reachable run meet fewLater
    intro source choice target before few step
    exact (ordered_of_orderly before few).lastReadSequence_le before.reachable step

end Steps

/-! ## Two threads of one instance -/

/-- A party that is no thread of the instance publishes one byte. -/
def publishing (byte : UInt8) : List (Choice (Fin 3)) :=
  (calls 0 (.writeSlice [byte]) 16).map fun label => .others label.1 label.2

/-- A thread calls `read` and gets a guard. -/
def reading (thread : Fin 3) : List (Choice (Fin 3)) :=
  .read thread true :: List.replicate 5 (.run thread false)

/-- Nothing has happened, over memory of one byte. -/
def unread : Joint (State (Fin 3)) (Instance (Fin 3)) :=
  ⟨State.fresh (Fin 3) 1 0 0, ⟨0, fun _ => false⟩⟩

theorem initial_unread : (system (fun thread : Fin 3 => thread ≠ 0) 0 0).initial unread :=
  ⟨initial_fresh (Fin 3) 1 0 0, rfl⟩

/-- One thread reads and stores, and then the other one does. -/
def readInTurn : Joint (State (Fin 3)) (Instance (Fin 3)) :=
  (system (· ≠ 0) 0 0).finish unread
    (publishing 7 ++ reading 1 ++ [.store 1, .drop 1, .run 1 false, .run 1 false, .run 1 false] ++
      publishing 8 ++ reading 2) (by decide +kernel)

theorem readInTurn_is_delivered_once :
    (History.admitted (· ≠ 0) readInTurn.core.log).Nodup ∧
      readInTurn.own.lastReadSequence = 1 ∧
      ∀ target, (system (· ≠ 0) 0 0).exec readInTurn [.store 2] = some target →
        target.core.publishes < period → 1 ≤ target.own.lastReadSequence := by
  have facts : readInTurn.core.publishes < period ∧ readInTurn.own.lastReadSequence = 1 ∧
      (system (· ≠ 0) 0 0).StepsMeet (Orderly (· ≠ 0)) readInTurn [.store 2] := by decide +kernel
  obtain ⟨few, last, meet⟩ := facts
  have reachable : (system (· ≠ 0) 0 0).ReachableVia (Orderly (· ≠ 0)) readInTurn :=
    System.reachableVia_finish initial_unread _ (by decide +kernel)
  obtain ⟨once, grows⟩ := delivered_at_most_once reachable few
  refine ⟨once, last, fun target run fewLater => ?_⟩
  rw [← last]
  exact grows _ target run meet fewLater

/-- Both threads load zero, and both are admitted for the first message. -/
def readTwice : Joint (State (Fin 3)) (Instance (Fin 3)) :=
  (system (· ≠ 0) 0 0).finish unread
    (publishing 7 ++ reading 1 ++ reading 2 ++ [.store 1, .store 2]) (by decide +kernel)

theorem readTwice_is_delivered_twice :
    (system (· ≠ 0) 0 0).Reachable readTwice ∧ readTwice.core.publishes < period ∧
      ¬ (History.admitted (· ≠ 0) readTwice.core.log).Nodup := by
  constructor
  · exact System.reachable_finish initial_unread _
  · decide +kernel

end ReadSync

end RsIpc
