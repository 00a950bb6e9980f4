import RsIpc.Python.ReadSync
import RsIpc.Python.WriteAsync
import RsIpc.SharedMessage.Stream

/-!
# A stream and its memory

The threads and the readers of a stream keep the rules that the memory asks of its
callers: readers register before they read and pass the number of their last guard,
nobody leaves, and every write ends with a publish or before it has begun.
-/

namespace RsIpc

open Protocol Transition

universe u

/-- Only a write looks at the counters of the consumers or touches the buffer. -/
theorem Pc.Within.writes {capacity : Nat} {operation : Operation} {pc : Pc}
    (within : pc.Within capacity operation) (writing : pc.checking = true ∨ pc.phase = .writing) :
    operation.Writes := by
  rcases writing with checking | writing
  · cases pc with
    | loadReaders writer currentSeq | nextReaders writer ticket => exact Writer.writes within
    | _ => cases checking
  · cases pc with
    | copy newData index =>
        obtain ⟨is, _⟩ := within
        subst is
        trivial
    | writeGuard =>
        change Operation.write = operation at within
        subst within
        trivial
    | abandon outcome =>
        obtain ⟨_, newData, is, _⟩ := within
        subst is
        trivial
    | loadPacked size | exchange size oldPacked => exact Operation.MayPublish.writes within
    | update site | cas site packed =>
        cases site with
        | resetConsumed size => exact Operation.MayPublish.writes within
        | _ => cases writing
    | wait site ticket spins | parked site ticket => cases site <;> cases writing
    | notify site | wake site => cases site <;> cases writing
    | _ => cases writing

theorem Pc.Within.updating_addReader {capacity : Nat} {pc : Pc}
    (within : pc.Within capacity .addReader) :
    pc.Updating .addReader ∨ ∃ outcome, pc = .done outcome := by
  cases pc with
  | done outcome => exact .inr ⟨outcome, rfl⟩
  | update site =>
      cases site with
      | addReader => exact .inl (.inl rfl)
      | _ => cases within
  | cas site packed =>
      cases site with
      | addReader => exact .inl (.inr ⟨packed, rfl⟩)
      | _ => cases within
  | wait site ticket spins | parked site ticket =>
      cases site with
      | reader lastSeenSeq block => cases within
      | backpressure writer | drain writer => cases writer <;> cases within
  | notify site | wake site =>
      cases site with
      | kick writer ticket => cases writer <;> cases within
      | _ => cases within
  | entryCheck writer | lock writer | loadSequence writer | loadReaders writer currentSeq
  | firstTicket writer readerState | backpressureStopped writer ticket | nextTicket writer
  | nextReaders writer ticket | setWriting writer | drainTicket writer | drainReaders writer ticket
  | drainStopped writer ticket => cases writer <;> cases within
  | copy newData index | unlock outcome => cases within.1
  | abandon outcome =>
      obtain ⟨_, newData, is, _⟩ := within
      cases is
  | _ => cases within

/-- `add_reader` returns with the step that registers the party, or panics. -/
theorem Takes.joins {msg : SharedMessage} {pc : Pc} {act : Act} (takes : Takes msg pc act)
    (at_ : pc.Updating .addReader) :
    act.event = some .joined ∧ act.pc = .done .unit ∨ act.event = none ∧ act.pc ≠ .done .unit := by
  cases takes with
  | panic site at_ membership | compute site at_ => exact .inr ⟨rfl, nofun⟩
  | unchanged size other same | unchangedTarget count other same =>
      rcases at_ with rfl | ⟨packed, rfl⟩ <;> rcases other with is | ⟨_, is⟩ <;> cases is
  | update site policy run =>
      rcases at_ with is | ⟨packed, is⟩
      · cases is
      · cases is
        exact .inl ⟨rfl, rfl⟩
  | _ => rcases at_ with is | ⟨packed, is⟩ <;> cases is

/-- Only `add_reader` registers a party. -/
theorem Takes.addReader_of_joined {msg : SharedMessage} {pc : Pc} {act : Act}
    (takes : Takes msg pc act) {operation : Operation} (within : pc.Within msg.capacity operation)
    (joined : act.event = some .joined) : operation = .addReader := by
  cases takes.record with
  | joined at_ effect event next =>
      rw [at_] at within
      exact (show Operation.addReader = operation from within).symm
  | silent event quiet =>
      rw [event] at joined
      cases joined
  | published size at_ is | admitted lastSeenSeq block sequence at_ down same is
  | ended lastSeenSeq block ticket at_ stopped same is =>
      rw [is] at joined
      cases joined
  | released sequence at_ effect event | left at_ effect event next =>
      rw [event] at joined
      cases joined

namespace WriteAsync

variable {ρ τ σ : Type u}

/-! ## Where the parties are -/

def ReaderStage.Fits (capacity : Nat) (pc : Pc) : ReaderStage → Prop
  | .absent => pc = .idle
  | .registering => pc.Within capacity .addReader
  | .ready => pc = .idle ∨ ∃ lastSeenSeq block, pc.Within capacity (.read lastSeenSeq block)
  | .stored | .copied => ∃ number, pc = .readGuard number

def ThreadStage.Fits (capacity : Nat) (pc : Pc) : ThreadStage → Prop
  | .writing data => data.length ≤ capacity ∧ pc.Within capacity (.writeSlice data)
  | .absent | .receiving | .ended => pc = .idle

/-- The point of a party fits what the instance knows of it. -/
def Instance.Fits (own : Instance ρ τ) (capacity : Nat) (pc : Pc) : Party ρ τ σ → Prop
  | .reader reader => (own.readers reader).stage.Fits capacity pc
  | .thread thread => (own.threads thread).stage.Fits capacity pc
  | .stopper _ => pc = .idle ∨ pc.Within capacity .stop

theorem WaitSite.resume_waits (site : WaitSite) :
    site.resume ≠ .idle ∧ ∀ number, site.resume ≠ .readGuard number := by
  cases site <;> exact ⟨nofun, nofun⟩

theorem Instance.fits_resume (own : Instance ρ τ) (capacity : Nat) (party : Party ρ τ σ)
    (site : WaitSite) (ticket : Nat) :
    own.Fits capacity site.resume party = own.Fits capacity (.parked site ticket) party := by
  obtain ⟨notIdle, noGuard⟩ := WaitSite.resume_waits site
  have within : ∀ operation : Operation, site.resume.Within capacity operation =
      (Pc.parked site ticket).Within capacity operation :=
    fun operation => WaitSite.within_resume capacity operation site ticket
  cases party with
  | reader reader =>
      unfold Instance.Fits
      cases (own.readers reader).stage <;> simp [ReaderStage.Fits, notIdle, noGuard, within]
  | thread thread =>
      unfold Instance.Fits
      cases (own.threads thread).stage <;> simp [ThreadStage.Fits, notIdle, within]
  | stopper stopper => simp [Instance.Fits, notIdle, within]

/-- A party is idle, in a call that writes nothing, or a thread that writes its data. -/
inductive Instance.Whereabouts (own : Instance ρ τ) (capacity : Nat) (pc : Pc)
    (party : Party ρ τ σ) : Prop
  | idle (is : pc = .idle)
  | calls (operation : Operation) (streams : operation.Streams capacity)
      (writesNothing : ¬ operation.Writes) (within : pc.Within capacity operation)
  | writes (thread : τ) (data : List UInt8) (is : party = .thread thread)
      (stage : (own.threads thread).stage = .writing data) (fits : data.length ≤ capacity)
      (within : pc.Within capacity (.writeSlice data))

theorem Instance.Fits.whereabouts {own : Instance ρ τ} {capacity : Nat} {pc : Pc}
    {party : Party ρ τ σ} (fits : own.Fits capacity pc party) :
    own.Whereabouts capacity pc party := by
  cases party with
  | reader reader =>
      change (own.readers reader).stage.Fits capacity pc at fits
      cases stage : (own.readers reader).stage with
      | absent =>
          rw [stage] at fits
          exact .idle fits
      | registering =>
          rw [stage] at fits
          exact .calls .addReader trivial id fits
      | ready =>
          rw [stage] at fits
          rcases fits with idle | ⟨lastSeenSeq, block, within⟩
          · exact .idle idle
          · exact .calls (.read lastSeenSeq block) trivial id within
      | stored | copied =>
          rw [stage] at fits
          obtain ⟨number, rfl⟩ := fits
          exact .calls (.read 0 true) trivial id trivial
  | thread thread =>
      change (own.threads thread).stage.Fits capacity pc at fits
      cases stage : (own.threads thread).stage with
      | writing data =>
          rw [stage] at fits
          exact .writes thread data rfl stage fits.1 fits.2
      | absent | receiving | ended =>
          rw [stage] at fits
          exact .idle fits
  | stopper stopper =>
      rcases fits with idle | within
      · exact .idle idle
      · exact .calls .stop trivial id within

theorem Instance.Fits.streams {own : Instance ρ τ} {capacity : Nat} {pc : Pc} {party : Party ρ τ σ}
    (fits : own.Fits capacity pc party) : pc.Streams capacity := by
  cases fits.whereabouts with
  | idle is => exact .inl is
  | calls operation streams writesNothing within => exact .inr ⟨operation, streams, within⟩
  | writes thread data is stage short within => exact .inr ⟨.writeSlice data, short, within⟩

/-- Whoever looks at the counters or touches the buffer is a thread with its data. -/
theorem Instance.Fits.writing {own : Instance ρ τ} {capacity : Nat} {pc : Pc} {party : Party ρ τ σ}
    (fits : own.Fits capacity pc party) (writing : pc.checking = true ∨ pc.phase = .writing) :
    ∃ thread data, party = .thread thread ∧ (own.threads thread).stage = .writing data ∧
      pc.Within capacity (.writeSlice data) := by
  cases fits.whereabouts with
  | idle is =>
      subst is
      rcases writing with is | is <;> cases is
  | calls operation streams writesNothing within => exact absurd (within.writes writing) writesNothing
  | writes thread data is stage short within => exact ⟨thread, data, is, stage, within⟩

/-! ## Steps of the memory -/

section Steps

variable [DecidableEq ρ] [DecidableEq τ] [DecidableEq σ] {closes : σ → Bool}

/-- The memory of a stream. -/
abbrev memory (ρ τ σ : Type u) [DecidableEq ρ] [DecidableEq τ] [DecidableEq σ] :=
  RsIpc.system (Party ρ τ σ) 65535 0

section Took

variable {source target : State (Party ρ τ σ)} {party : Party ρ τ σ} {taken : Option RsIpc.Choice}

theorem capacity_of_took
    (took : (memory ρ τ σ).Took source (taken.map fun taken => (party, taken)) target) :
    target.msg.capacity = source.msg.capacity := by
  cases taken with
  | none => rw [show target = source from took]
  | some choice =>
      obtain ⟨act, _, rfl⟩ := State.step_eq_some_iff.mp took
      rw [State.perform_msg, Effect.capacity_apply]

theorem view_of_took {α : Type} (view : Pc → α)
    (resume : ∀ site ticket, view site.resume = view (.parked site ticket))
    (took : (memory ρ τ σ).Took source (taken.map fun taken => (party, taken)) target)
    {other : Party ρ τ σ} (ne : other ≠ party) : view (target.pc other) = view (source.pc other) := by
  cases taken with
  | none => rw [show target = source from took]
  | some choice => exact State.view_of_step view resume took ne

end Took

/-- A party that is not in a call takes no step of one. -/
theorem not_idle_of_run {msg : SharedMessage} {spurious : Bool} {pc : Pc} {act : Act}
    (taken : next msg (if spurious then .spurious else .go) pc = some act) : pc ≠ .idle := by
  rintro rfl
  cases spurious <;> cases taken

omit [DecidableEq ρ] [DecidableEq τ] [DecidableEq σ] in
theorem ReaderMoves.fits_own {msg : SharedMessage} {pc : Pc} {reader next : Reader}
    {choice : ReaderChoice} (moves : ReaderMoves msg pc reader choice none next) {capacity : Nat}
    (fits : reader.stage.Fits capacity pc) : next.stage.Fits capacity pc := by
  cases moves with
  | store number holds ready => exact ⟨number, holds⟩
  | copy stored =>
      rw [stored] at fits
      exact fits

omit [DecidableEq ρ] [DecidableEq τ] [DecidableEq σ] in
/-- The step that a reader takes leads it where it is going to be. -/
theorem ReaderMoves.fits {msg : SharedMessage} {pc : Pc} {reader next : Reader}
    {choice : ReaderChoice} {call : RsIpc.Choice}
    (moves : ReaderMoves msg pc reader choice (some call) next) {act : Act}
    (taken : RsIpc.next msg call pc = some act) (fits : reader.stage.Fits msg.capacity pc) :
    next.stage.Fits msg.capacity act.pc := by
  cases moves with
  | new absent =>
      obtain ⟨_, rfl⟩ := next_invoke taken
      exact Operation.within_start msg.capacity .addReader
  | read block ready =>
      obtain ⟨_, rfl⟩ := next_invoke taken
      rw [ready]
      exact .inr ⟨_, block, Operation.within_start _ _⟩
  | run spurious running =>
      cases stage : reader.stage with
      | absent =>
          rw [stage] at fits
          exact absurd fits (not_idle_of_run taken)
      | registering =>
          rw [stage] at fits
          rcases (next_takes taken).within fits with within | ⟨outcome, done⟩
          · exact within
          · exact absurd done (running outcome)
      | ready =>
          rw [stage] at fits
          rcases fits with idle | ⟨lastSeenSeq, block, within⟩
          · exact absurd idle (not_idle_of_run taken)
          · rcases (next_takes taken).within within with within | ⟨outcome, done⟩
            · exact .inr ⟨lastSeenSeq, block, within⟩
            · exact absurd done (running outcome)
      | stored | copied =>
          rw [stage] at fits
          obtain ⟨number, rfl⟩ := fits
          cases spurious <;> cases taken
  | drop copied =>
      rcases next_drop taken with ⟨number, _, rfl⟩ | ⟨rfl, _⟩
      · exact .inr ⟨0, true, trivial⟩
      · rw [copied] at fits
        obtain ⟨number, is⟩ := fits
        cases is
  | finish outcome done =>
      subst done
      cases taken
      cases stage : reader.stage with
      | absent => rfl
      | registering =>
          cases outcome with
          | unit => exact .inl rfl
          | _ => rfl
      | ready => exact .inl rfl
      | stored | copied =>
          rw [stage] at fits
          obtain ⟨number, is⟩ := fits
          cases is

omit [DecidableEq ρ] [DecidableEq τ] [DecidableEq σ] in
/-- The step that a thread takes leads it where it is going to be. -/
theorem ThreadMoves.fits {closed : Bool} {msg : SharedMessage} {pc : Pc} {thread next : Thread}
    {choice : ThreadChoice} {call : RsIpc.Choice}
    (moves : ThreadMoves closed pc thread choice (some call) next) {act : Act}
    (taken : RsIpc.next msg call pc = some act) (fits : thread.stage.Fits msg.capacity pc)
    (queued : ∀ payload ∈ thread.queue, payload.length ≤ msg.capacity) :
    next.stage.Fits msg.capacity act.pc := by
  cases moves with
  | receive data queue =>
      obtain ⟨_, rfl⟩ := next_invoke taken
      exact ⟨queued data List.mem_cons_self, Operation.within_start _ _⟩
  | run _ spurious running =>
      cases stage : thread.stage with
      | writing data =>
          rw [stage] at fits
          rcases (next_takes taken).within fits.2 with within | ⟨outcome, done⟩
          · exact ⟨fits.1, within⟩
          · exact absurd done (running outcome)
      | absent | receiving | ended =>
          rw [stage] at fits
          exact absurd fits (not_idle_of_run taken)
  | written _ number done | refused _ outcome done failed =>
      subst done
      cases taken
      rfl

omit [DecidableEq ρ] [DecidableEq τ] [DecidableEq σ] in
theorem ThreadMoves.fits_own {closed : Bool} {pc : Pc} {thread next : Thread}
    {choice : ThreadChoice} (moves : ThreadMoves closed pc thread choice none next) {capacity : Nat}
    (fits : thread.stage.Fits capacity pc) : next.stage.Fits capacity pc := by
  cases moves with
  | hangUp gone => exact fits

omit [DecidableEq ρ] [DecidableEq τ] [DecidableEq σ] in
/-- A thread only takes payloads out of its queue. -/
theorem ThreadMoves.queue_subset {closed : Bool} {pc : Pc} {thread next : Thread}
    {choice : ThreadChoice} {taken : Option RsIpc.Choice}
    (moves : ThreadMoves closed pc thread choice taken next) : next.queue ⊆ thread.queue := by
  cases moves with
  | receive data queue => exact List.subset_cons_self _ _
  | _ => exact List.Subset.refl _

/-- Every party is where the instance takes it to be, and what is queued fits. -/
structure Placed (state : Whole ρ τ σ) : Prop where
  fits : ∀ party, state.own.Fits state.core.msg.capacity (state.core.pc party) party
  queued : ∀ thread, ∀ payload ∈ (state.own.threads thread).queue,
    payload.length ≤ state.core.msg.capacity

/-- If a party is placed after its step and the instance changed for it alone, all are. -/
theorem fits_of_took {own next : Instance ρ τ} {source target : State (Party ρ τ σ)}
    {party : Party ρ τ σ} {taken : Option RsIpc.Choice}
    (took : (memory ρ τ σ).Took source (taken.map fun taken => (party, taken)) target)
    (fits : ∀ party, own.Fits source.msg.capacity (source.pc party) party)
    (others : ∀ other, other ≠ party → ∀ pc : Pc,
      own.Fits source.msg.capacity pc other → next.Fits source.msg.capacity pc other)
    (self : next.Fits source.msg.capacity (target.pc party) party) (other : Party ρ τ σ) :
    next.Fits target.msg.capacity (target.pc other) other := by
  rw [capacity_of_took took]
  by_cases here : other = party
  · rw [here]
    exact self
  · refine others other here _ ?_
    rw [view_of_took (fun pc => own.Fits source.msg.capacity pc other)
      (own.fits_resume source.msg.capacity other) took here]
    exact fits other

omit [DecidableEq ρ] [DecidableEq σ] in
/-- `write_async` moves no party. -/
theorem Instance.Writes.fits {own next : Instance ρ τ} {payload : List UInt8} {fresh : τ}
    (writes : own.Writes payload fresh next) {capacity : Nat} {pc : Pc} {party : Party ρ τ σ}
    (fits : own.Fits capacity pc party) : next.Fits capacity pc party := by
  cases writes with
  | fails thread is ended => exact fits
  | sends thread is alive =>
      cases party with
      | thread other =>
          by_cases here : other = thread
          · subst here
            simpa [Instance.Fits, Instance.send] using fits
          · simpa [Instance.Fits, Instance.send, here] using fits
      | _ => exact fits
  | creates is absent =>
      cases party with
      | thread other =>
          by_cases here : other = fresh
          · subst here
            simp only [Instance.Fits, absent] at fits
            simpa [Instance.Fits, Instance.send, Instance.create, ThreadStage.Fits] using fits
          · simpa [Instance.Fits, Instance.send, Instance.create, here] using fits
      | _ => exact fits

omit [DecidableEq ρ] in
theorem Instance.Writes.queued {own next : Instance ρ τ} {payload : List UInt8} {fresh : τ}
    (writes : own.Writes payload fresh next) {capacity : Nat} (short : payload.length ≤ capacity)
    (queued : ∀ thread, ∀ payload ∈ (own.threads thread).queue, payload.length ≤ capacity)
    (thread : τ) : ∀ payload ∈ (next.threads thread).queue, payload.length ≤ capacity := by
  intro other mem
  cases writes with
  | fails sender is ended => exact queued thread other mem
  | sends sender is alive =>
      by_cases here : thread = sender
      · subst here
        simp only [Instance.send, Function.update_self, List.mem_append, List.mem_singleton] at mem
        rcases mem with old | rfl
        · exact queued thread other old
        · exact short
      · simp only [Instance.send, Function.update_of_ne here] at mem
        exact queued thread other mem
  | creates is absent =>
      by_cases here : thread = fresh
      · subst here
        simp only [Instance.send, Instance.create, Function.update_self, List.nil_append,
          List.mem_singleton] at mem
        rw [mem]
        exact short
      · simp only [Instance.send, Instance.create, Function.update_of_ne here] at mem
        exact queued thread other mem

theorem Placed.step {source target : Whole ρ τ σ} {choice : Choice ρ τ σ} (placed : Placed source)
    (step : (system ρ τ closes).step source choice = some target) : Placed target := by
  cases moves_of_step step with
  | write payload fresh short writes =>
      exact ⟨fun party => writes.fits (placed.fits party), writes.queued short placed.queued⟩
  | thread thread choice moves took =>
      constructor
      · refine fits_of_took took placed.fits ?_ ?_
        · intro other ne pc fits
          cases other with
          | thread other =>
              have apart : other ≠ thread := fun same => ne (congrArg Party.thread same)
              simpa [Instance.Fits, apart] using fits
          | _ => exact fits
        · rename_i taken next core
          have here : (source.own.threads thread).stage.Fits source.core.msg.capacity
              (source.core.pc (.thread thread)) := placed.fits (.thread thread)
          simp only [Instance.Fits, Function.update_self]
          cases taken with
          | none =>
              rw [show core = source.core from took]
              exact moves.fits_own here
          | some call =>
              obtain ⟨act, taken, rfl⟩ := State.step_eq_some_iff.mp took
              rw [State.perform_pc_self]
              exact moves.fits taken here (placed.queued thread)
      · intro other payload mem
        rw [capacity_of_took took]
        refine placed.queued other payload ?_
        by_cases here : other = thread
        · subst here
          simp only [Function.update_self] at mem
          exact moves.queue_subset mem
        · simpa [here] using mem
  | reader reader choice moves took =>
      constructor
      · refine fits_of_took took placed.fits ?_ ?_
        · intro other ne pc fits
          cases other with
          | reader other =>
              have apart : other ≠ reader := fun same => ne (congrArg Party.reader same)
              simpa [Instance.Fits, apart] using fits
          | _ => exact fits
        · rename_i taken next core
          have here : (source.own.readers reader).stage.Fits source.core.msg.capacity
              (source.core.pc (.reader reader)) := placed.fits (.reader reader)
          simp only [Instance.Fits, Function.update_self]
          cases taken with
          | none =>
              rw [show core = source.core from took]
              exact moves.fits_own here
          | some call =>
              obtain ⟨act, taken, rfl⟩ := State.step_eq_some_iff.mp took
              rw [State.perform_pc_self]
              exact moves.fits taken here
      · intro other payload mem
        rw [capacity_of_took took]
        exact placed.queued other payload mem
  | stop stopper taken =>
      have took : (memory ρ τ σ).Took source.core
        ((some (.invoke .stop)).map fun taken => (.stopper stopper, taken)) _ := taken
      refine ⟨fits_of_took took placed.fits (fun _ _ _ fits => fits) ?_, ?_⟩
      · obtain ⟨act, chosen, rfl⟩ := State.step_eq_some_iff.mp taken
        obtain ⟨_, rfl⟩ := next_invoke chosen
        rw [State.perform_pc_self]
        exact .inr (Operation.within_start _ .stop)
      · intro other payload mem
        rw [capacity_of_took took]
        exact placed.queued other payload mem
  | stopping stopper spurious running taken =>
      have took : (memory ρ τ σ).Took source.core
        ((some (if spurious then .spurious else .go)).map fun taken => (.stopper stopper, taken)) _ :=
          taken
      refine ⟨fits_of_took took placed.fits (fun _ _ _ fits => fits) ?_, ?_⟩
      · obtain ⟨act, chosen, rfl⟩ := State.step_eq_some_iff.mp taken
        rw [State.perform_pc_self]
        rcases placed.fits (.stopper stopper) with idle | within
        · exact absurd idle (not_idle_of_run chosen)
        · rcases (next_takes chosen).within within with within | ⟨outcome, done⟩
          · exact .inr within
          · exact absurd done (running outcome)
      · intro other payload mem
        rw [capacity_of_took took]
        exact placed.queued other payload mem
  | stopped stopper outcome done taken =>
      have took : (memory ρ τ σ).Took source.core
        ((some .go).map fun taken => (.stopper stopper, taken)) _ := taken
      have same : ∀ (party : Party ρ τ σ) capacity pc, Instance.Fits (if closes stopper = true then
          { source.own with sender := none } else source.own) capacity pc party =
            source.own.Fits capacity pc party := by
        intro party capacity pc
        split
        · cases party <;> rfl
        · rfl
      refine ⟨fits_of_took took placed.fits (fun other _ pc fits => ?_) ?_, ?_⟩
      · rw [same]
        exact fits
      · obtain ⟨act, chosen, rfl⟩ := State.step_eq_some_iff.mp taken
        rw [done] at chosen
        cases chosen
        rw [same, State.perform_pc_self]
        exact .inl rfl
      · intro other payload mem
        rw [capacity_of_took took]
        refine placed.queued other payload ?_
        split at mem <;> exact mem

theorem placed_of_reachable {ok : StepCondition (Whole ρ τ σ) (Choice ρ τ σ)} {state : Whole ρ τ σ}
    (reachable : (system ρ τ closes).ReachableVia ok state) : Placed state := by
  refine reachable.invariant Placed ?_ fun _ placed step _ => placed.step step
  rintro ⟨core, own⟩ ⟨⟨capacity, rfl⟩, rfl⟩
  constructor
  · intro party
    cases party with
    | stopper stopper => exact .inl rfl
    | _ => exact rfl
  · intro thread payload mem
    cases mem

/-! ## Registrations and numbers -/

omit [DecidableEq ρ] [DecidableEq τ] [DecidableEq σ] in
/-- The number of the last guard, which `read_sync` is about to store while it has it. -/
def Reader.known (reader : Reader) (pc : Pc) : BitVec 64 :=
  match reader.stage with
  | .ready => pc.held.getD reader.lastReadSequence
  | _ => reader.lastReadSequence

theorem Reader.known_resume (reader : Reader) (site : WaitSite) (ticket : Nat) :
    reader.known site.resume = reader.known (.parked site ticket) := by
  unfold known
  rw [WaitSite.held_resume site ticket]

theorem Reader.known_of_not_held {reader : Reader} {pc : Pc} (none : pc.held = none) :
    reader.known pc = reader.lastReadSequence := by
  unfold known
  split
  · rw [none]
    rfl
  · rfl

/-- A reader is registered once it is constructed, and knows the number of its last guard. -/
structure Reader.Tracked (reader : Reader) (core : State (Party ρ τ σ)) (me : ρ) : Prop where
  absent : reader.stage = .absent →
    History.enrolled (fun _ => false) core.log (.reader me) = false
  registering : reader.stage = .registering →
    (History.enrolled (fun _ => false) core.log (.reader me) = true ↔
      core.pc (.reader me) = .done .unit)
  registered : reader.stage.Registered →
    History.enrolled (fun _ => false) core.log (.reader me) = true
  last : reader.known (core.pc (.reader me)) = History.lastAdmitted (· = .reader me) core.log

/-- The steps of other parties keep it. -/
theorem Reader.Tracked.frame {reader : Reader} {source target : State (Party ρ τ σ)} {me : ρ}
    (tracked : reader.Tracked source me) {party : Party ρ τ σ} {taken : Option RsIpc.Choice}
    (took : (memory ρ τ σ).Took source (taken.map fun taken => (party, taken)) target)
    (ne : .reader me ≠ party) : reader.Tracked target me := by
  have known := view_of_took reader.known reader.known_resume took ne
  have returned := view_of_took (· = .done .unit)
    (fun site _ => by cases site <;> exact propext ⟨nofun, nofun⟩) took ne
  cases taken with
  | none =>
      rw [show target = source from took]
      exact tracked
  | some call =>
      obtain ⟨act, chosen, rfl⟩ := State.step_eq_some_iff.mp took
      have enrolled := History.enrolled_perform_of_ne (fun _ => false) source ne act
      constructor
      · rw [enrolled]
        exact tracked.absent
      · rw [enrolled, returned]
        exact tracked.registering
      · rw [enrolled]
        exact tracked.registered
      · rw [known, tracked.last]
        rcases lastAdmitted_perform chosen (.reader me) with ⟨_, _, here, _⟩ | same
        · exact absurd here ne
        · exact same.symm

omit [DecidableEq ρ] [DecidableEq τ] [DecidableEq σ] in
theorem ReaderStage.registered_of_eq_ready {stage : ReaderStage} (ready : stage = .ready) :
    stage.Registered := by
  subst ready
  exact ⟨nofun, nofun⟩

/-- A step of `read` keeps the registration, and the number of a new guard is known. -/
theorem Reader.Tracked.run {reader : Reader} {source : State (Party ρ τ σ)} {me : ρ}
    (tracked : reader.Tracked source me) (ready : reader.stage = .ready) {spurious : Bool} {act : Act}
    (chosen : next source.msg (if spurious then .spurious else .go) (source.pc (.reader me)) =
      some act)
    {lastSeenSeq : BitVec 64} {block : Bool}
    (within : (source.pc (.reader me)).Within source.msg.capacity (.read lastSeenSeq block)) :
    reader.Tracked (source.perform (.reader me) act) me := by
  have enrolled := tracked.registered (ReaderStage.registered_of_eq_ready ready)
  constructor
  · intro is
    cases ready.symm.trans is
  · intro is
    cases ready.symm.trans is
  · intro _
    rw [History.enrolled_perform_quiet (fun _ => false) source (.reader me)]
    · exact enrolled
    · intro joined
      cases (next_takes chosen).addReader_of_joined within joined
    · exact (next_takes chosen).not_left_of_streams (.inr ⟨.read lastSeenSeq block, trivial, within⟩)
  · rw [State.perform_pc_self]
    cases held : act.pc.held with
    | some number =>
        obtain ⟨_, event, _⟩ := (next_takes chosen).held held
        have known : reader.known act.pc = number := by simp [Reader.known, ready, held]
        rw [known, State.perform_log, event, History.lastAdmitted, History.admitted_append]
        simp [History.admitted]
    | none =>
        rw [Reader.known_of_not_held held]
        have before := tracked.last
        rw [Reader.known_of_not_held (ReadSync.held_of_run chosen)] at before
        rcases lastAdmitted_perform chosen (.reader me) with ⟨_, _, _, _, rfl⟩ | same
        · cases held
        · exact before.trans same.symm

/-- Whatever a reader does next keeps it. -/
theorem ReaderMoves.tracked {source target : State (Party ρ τ σ)} {me : ρ} {reader next : Reader}
    {choice : ReaderChoice} {taken : Option RsIpc.Choice}
    (moves : ReaderMoves source.msg (source.pc (.reader me)) reader choice taken next)
    (took : (memory ρ τ σ).Took source (taken.map fun taken => (.reader me, taken)) target)
    (fits : reader.stage.Fits source.msg.capacity (source.pc (.reader me)))
    (tracked : reader.Tracked source me) : next.Tracked target me := by
  cases moves with
  | store number holds ready =>
      rw [show target = source from took]
      refine ⟨nofun, nofun, fun _ =>
        tracked.registered (ReaderStage.registered_of_eq_ready ready), ?_⟩
      rw [← tracked.last, holds]
      simp [Reader.known, ready, Pc.held]
  | copy stored =>
      rw [show target = source from took]
      refine ⟨nofun, nofun, fun _ => tracked.registered ?_, ?_⟩
      · rw [stored]
        exact ⟨nofun, nofun⟩
      · rw [← tracked.last]
        simp [Reader.known, stored]
  | new absent =>
      obtain ⟨act, chosen, rfl⟩ := State.step_eq_some_iff.mp took
      obtain ⟨idle, rfl⟩ := next_invoke chosen
      have log : (source.perform (.reader me) (.goto Operation.addReader.start)).log = source.log :=
        List.append_nil _
      constructor
      · nofun
      · intro _
        rw [log, tracked.absent absent, State.perform_pc_self]
        exact ⟨nofun, nofun⟩
      · intro registered
        exact absurd rfl registered.2
      · rw [log, ← tracked.last, State.perform_pc_self, idle]
        simp [Reader.known, absent]
  | read block ready =>
      obtain ⟨act, chosen, rfl⟩ := State.step_eq_some_iff.mp took
      obtain ⟨idle, rfl⟩ := next_invoke chosen
      have log : (source.perform (.reader me)
          (.goto (Operation.read reader.lastReadSequence block).start)).log = source.log :=
        List.append_nil _
      constructor
      · intro is
        cases ready.symm.trans is
      · intro is
        cases ready.symm.trans is
      · rw [log]
        exact tracked.registered
      · rw [log, ← tracked.last, State.perform_pc_self, idle]
        rw [Reader.known_of_not_held rfl, Reader.known_of_not_held rfl]
  | run spurious running =>
      obtain ⟨act, chosen, rfl⟩ := State.step_eq_some_iff.mp took
      cases stage : reader.stage with
      | absent =>
          rw [stage] at fits
          exact absurd fits (not_idle_of_run chosen)
      | registering =>
          rw [stage] at fits
          rcases fits.updating_addReader with at_ | ⟨outcome, done⟩
          · have before : History.enrolled (fun _ => false) source.log (.reader me) = false := by
              rw [← Bool.not_eq_true, tracked.registering stage]
              exact running .unit
            have last := tracked.last
            constructor
            · intro is
              cases stage.symm.trans is
            · intro _
              rw [State.perform_pc_self, History.enrolled_perform_self]
              rcases (next_takes chosen).joins at_ with ⟨joined, unit⟩ | ⟨silent, more⟩
              · rw [joined, unit]
                exact iff_of_true rfl rfl
              · rw [silent]
                refine iff_of_false ?_ more
                rw [before]
                exact Bool.false_ne_true
            · intro registered
              exact absurd stage registered.2
            · have same : reader.known act.pc = reader.known (source.pc (.reader me)) := by
                simp [Reader.known, stage]
              rw [State.perform_pc_self, same, last]
              rcases lastAdmitted_perform chosen (.reader me) with ⟨_, _, _, verify, _⟩ | same
              · rw [verify] at fits
                cases fits
              · exact same.symm
          · exact absurd done (running outcome)
      | ready =>
          rw [stage] at fits
          rcases fits with idle | ⟨lastSeenSeq, block, within⟩
          · exact absurd idle (not_idle_of_run chosen)
          · exact tracked.run stage chosen within
      | stored | copied =>
          rw [stage] at fits
          obtain ⟨number, is⟩ := fits
          rw [is] at chosen
          cases spurious <;> cases chosen
  | drop copied =>
      obtain ⟨act, chosen, rfl⟩ := State.step_eq_some_iff.mp took
      rw [copied] at fits
      obtain ⟨number, is⟩ := fits
      rw [is] at chosen
      cases chosen
      have log : (source.perform (.reader me) (.goto (.update (.release number)))).log =
          source.log := List.append_nil _
      refine ⟨nofun, nofun, fun _ => ?_, ?_⟩
      · rw [log]
        refine tracked.registered ?_
        rw [copied]
        exact ⟨nofun, nofun⟩
      · rw [log, ← tracked.last, State.perform_pc_self, Reader.known_of_not_held rfl]
        simp [Reader.known, copied]
  | finish outcome done =>
      obtain ⟨act, chosen, rfl⟩ := State.step_eq_some_iff.mp took
      rw [done] at chosen
      cases chosen
      have log : (source.perform (.reader me) (.goto .idle)).log = source.log :=
        List.append_nil _
      have last : { reader with stage := reader.stage.finish outcome }.known Pc.idle =
          History.lastAdmitted (· = .reader me) source.log := by
        rw [← tracked.last, done, Reader.known_of_not_held rfl, Reader.known_of_not_held rfl]
      rw [done] at fits
      cases stage : reader.stage with
      | registering =>
          have joined := tracked.registering stage
          rw [done] at joined
          rw [stage] at last
          cases outcome with
          | unit =>
              refine ⟨nofun, nofun, fun _ => ?_, ?_⟩
              · rw [log]
                exact joined.mpr rfl
              · rw [log, State.perform_pc_self]
                exact last
          | none | sequence number | panicked =>
              refine ⟨fun _ => ?_, nofun, fun registered => absurd rfl registered.1, ?_⟩
              · rw [log, ← Bool.not_eq_true, joined]
                nofun
              · rw [log, State.perform_pc_self]
                exact last
      | ready =>
          rw [stage] at last
          refine ⟨nofun, nofun, fun _ => ?_, ?_⟩
          · rw [log]
            exact tracked.registered (ReaderStage.registered_of_eq_ready stage)
          · rw [log, State.perform_pc_self]
            exact last
      | absent =>
          rw [stage] at fits
          cases fits
      | stored | copied =>
          rw [stage] at fits
          obtain ⟨number, is⟩ := fits
          cases is

omit [DecidableEq ρ] in
theorem Instance.Writes.readers {own next : Instance ρ τ} {payload : List UInt8} {fresh : τ}
    (writes : own.Writes payload fresh next) : next.readers = own.readers := by
  cases writes <;> rfl

theorem tracked_of_reachable {ok : StepCondition (Whole ρ τ σ) (Choice ρ τ σ)} {state : Whole ρ τ σ}
    (reachable : (system ρ τ closes).ReachableVia ok state) (me : ρ) :
    (state.own.readers me).Tracked state.core me := by
  refine reachable.invariant (fun state => ∀ me, (state.own.readers me).Tracked state.core me)
    ?_ ?_ me
  · rintro ⟨core, own⟩ ⟨⟨capacity, rfl⟩, rfl⟩ me
    exact ⟨fun _ => rfl, nofun, fun registered => absurd rfl registered.1, rfl⟩
  · rintro source choice target before tracked step _ me
    cases moves_of_step step with
    | write payload fresh short writes =>
        rw [writes.readers]
        exact tracked me
    | thread thread choice moves took => exact (tracked me).frame took nofun
    | reader reader choice moves took =>
        by_cases here : me = reader
        · subst here
          simp only [Function.update_self]
          exact moves.tracked took ((placed_of_reachable before).fits (.reader me)) (tracked me)
        · simp only [Function.update_of_ne here]
          exact (tracked me).frame took fun same => here (Party.reader.inj same)
    | stop stopper taken =>
        have took : (memory ρ τ σ).Took source.core
          ((some (.invoke .stop)).map fun taken => (.stopper stopper, taken)) _ := taken
        exact (tracked me).frame took nofun
    | stopping stopper spurious running taken =>
        have took : (memory ρ τ σ).Took source.core
          ((some (if spurious then .spurious else .go)).map
            fun taken => (.stopper stopper, taken)) _ := taken
        exact (tracked me).frame took nofun
    | stopped stopper outcome done taken =>
        have took : (memory ρ τ σ).Took source.core
          ((some .go).map fun taken => (.stopper stopper, taken)) _ := taken
        have same : (if closes stopper = true then { source.own with sender := none } else
            source.own).readers = source.own.readers := by
          split <;> rfl
        rw [same]
        exact (tracked me).frame took nofun

/-! ## The rules of the memory -/

/-- Consumers abide, and every write that starts writing publishes. -/
def Regular : StepCondition (State (Party ρ τ σ)) (Party ρ τ σ × RsIpc.Choice) :=
  fun source label target =>
    Abiding (fun _ => false) source label target ∧ Publishes source label target

theorem Placed.regular {state : Whole ρ τ σ} (placed : Placed state) {party : Party ρ τ σ}
    {call : RsIpc.Choice} {core : State (Party ρ τ σ)}
    (taken : state.core.step (party, call) = some core)
    (member : ∀ registered ∈ call.member,
      History.enrolled (fun _ => false) state.core.log party = registered)
    (seen : ∀ lastSeenSeq ∈ call.lastSeen,
      lastSeenSeq = History.lastAdmitted (· = party) state.core.log) :
    Regular state.core (party, call) core := by
  obtain ⟨act, chosen, rfl⟩ := State.step_eq_some_iff.mp taken
  have streams := (placed.fits party).streams
  refine ⟨⟨⟨member, seen⟩, ?_⟩, ?_⟩
  · intro log
    have left : act.event = some .left := by
      rw [State.perform_log, List.append_cancel_left_eq] at log
      cases event : act.event with
      | none =>
          rw [event] at log
          cases log
      | some event' =>
          rw [event] at log
          cases log
          rfl
    exact absurd left ((next_takes chosen).not_left_of_streams streams)
  · rintro ⟨writing, outside⟩
    rw [State.perform_pc_self] at outside
    exact (next_takes chosen).publishes_of_streams streams writing outside

omit [DecidableEq ρ] [DecidableEq τ] [DecidableEq σ] in
/-- A thread neither registers nor reads. -/
theorem ThreadMoves.member_lastSeen {closed : Bool} {pc : Pc} {thread next : Thread}
    {choice : ThreadChoice} {call : RsIpc.Choice}
    (moves : ThreadMoves closed pc thread choice (some call) next) :
    call.member = none ∧ call.lastSeen = none := by
  cases moves with
  | run _ spurious running => cases spurious <;> exact ⟨rfl, rfl⟩
  | _ => exact ⟨rfl, rfl⟩

/-- The memory is in a run that keeps its rules. -/
theorem regular_of_reachable {ok : StepCondition (Whole ρ τ σ) (Choice ρ τ σ)} {state : Whole ρ τ σ}
    (reachable : (system ρ τ closes).ReachableVia ok state) :
    (memory ρ τ σ).ReachableVia Regular state.core := by
  refine System.reachableVia_core_of_steps reachable fun {source target choice} before step _ => ?_
  have placed := placed_of_reachable before
  cases moves_of_step step with
  | write payload fresh short writes => exact .inl rfl
  | @thread thread choice taken next moves core took =>
      cases taken with
      | none => exact .inl took
      | some call =>
          obtain ⟨member, seen⟩ := moves.member_lastSeen
          refine .inr ⟨_, took, placed.regular took ?_ ?_⟩
          · rw [member]
            nofun
          · rw [seen]
            nofun
  | @reader reader choice taken next moves core took =>
      have tracked := tracked_of_reachable before reader
      cases taken with
      | none => exact .inl took
      | some call =>
          refine .inr ⟨_, took, ?_⟩
          cases moves with
          | new absent =>
              refine placed.regular took ?_ nofun
              rintro registered ⟨rfl⟩
              exact tracked.absent absent
          | read block ready =>
              refine placed.regular took ?_ ?_
              · rintro registered ⟨rfl⟩
                exact tracked.registered (ReaderStage.registered_of_eq_ready ready)
              · rintro lastSeenSeq ⟨rfl⟩
                obtain ⟨act, chosen, _⟩ := State.step_eq_some_iff.mp took
                obtain ⟨idle, _⟩ := next_invoke chosen
                rw [← tracked.last, idle, Reader.known_of_not_held rfl]
          | run spurious running => cases spurious <;> exact placed.regular took nofun nofun
          | drop copied | finish outcome done => exact placed.regular took nofun nofun
  | stop stopper taken | stopped stopper outcome done taken =>
      exact .inr ⟨_, taken, placed.regular taken nofun nofun⟩
  | stopping stopper spurious running taken =>
      refine .inr ⟨_, taken, ?_⟩
      cases spurious <;> exact placed.regular taken nofun nofun

end Steps

end WriteAsync

end RsIpc
