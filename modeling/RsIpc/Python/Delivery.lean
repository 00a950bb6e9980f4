import RsIpc.Python.Pipeline

/-!
# Delivery

What is enqueued crosses the queue, the background thread, the memory and the reader,
and arrives once and in order: no reader is more than one message behind, so the
thread overwrites nothing that a reader still needs.
-/

namespace RsIpc.WriteAsync

open Protocol Transition SequenceState

universe u

variable {ρ τ σ : Type u} [DecidableEq ρ] [DecidableEq τ] [DecidableEq σ] {closes : σ → Bool}

/-! ## Before the first payload -/

omit [DecidableEq ρ] [DecidableEq τ] [DecidableEq σ] in
/-- A constructed reader stays. -/
theorem ReaderMoves.registered {msg : SharedMessage} {pc : Pc} {reader next : Reader}
    {choice : ReaderChoice} {taken : Option RsIpc.Choice}
    (moves : ReaderMoves msg pc reader choice taken next) (registered : reader.stage.Registered) :
    next.stage.Registered := by
  cases moves with
  | new absent => exact absurd absent registered.1
  | read block ready | run spurious running => exact registered
  | store number holds ready | copy stored | drop copied => exact ⟨nofun, nofun⟩
  | finish outcome done =>
      obtain ⟨there, constructed⟩ := registered
      cases stage : reader.stage with
      | absent => exact absurd stage there
      | registering => exact absurd stage constructed
      | ready | stored | copied => exact ⟨nofun, nofun⟩

/-- All readers are constructed before a thread is created. -/
theorem registered_of_begun {state : Whole ρ τ σ}
    (reachable : (system ρ τ closes).ReachableVia AllRegistered state) {thread : τ}
    (begun : (state.own.threads thread).stage ≠ .absent) (reader : ρ) :
    (state.own.readers reader).stage.Registered := by
  refine reachable.invariant (fun state => ∀ thread, (state.own.threads thread).stage ≠ .absent →
    ∀ reader, (state.own.readers reader).stage.Registered) ?_ ?_ thread begun reader
  · rintro ⟨core, own⟩ ⟨_, rfl⟩ thread begun
    exact absurd rfl begun
  · rintro source choice target before registered step all thread begun reader
    cases moves_of_step step with
    | write payload fresh short writes =>
        rw [writes.readers]
        exact all reader
    | thread other choice moves took =>
        by_cases here : thread = other
        · subst here
          simp only [Function.update_self] at begun
          exact registered thread
            (moves.begun ((placed_of_reachable before).fits (.thread thread)) begun) reader
        · simp only [Function.update_of_ne here] at begun
          exact registered thread begun reader
    | reader other choice moves took =>
        have earlier := registered thread begun
        by_cases here : reader = other
        · subst here
          simp only [Function.update_self]
          exact moves.registered (earlier reader)
        · simp only [Function.update_of_ne here]
          exact earlier reader
    | stop stopper taken => exact registered thread begun reader
    | stopping stopper spurious running taken => exact registered thread begun reader
    | stopped stopper outcome done taken =>
        have same : (if closes stopper = true then { source.own with sender := none } else
            source.own).readers = source.own.readers ∧
          (if closes stopper = true then { source.own with sender := none } else
            source.own).threads = source.own.threads := by
          split <;> exact ⟨rfl, rfl⟩
        rw [same.2] at begun
        rw [same.1]
        exact registered thread begun reader

/-- The memory keeps waiting for all readers. -/
theorem targetRead_of_reachable {ok : StepCondition (Whole ρ τ σ) (Choice ρ τ σ)}
    {state : Whole ρ τ σ} (reachable : (system ρ τ closes).ReachableVia ok state) :
    state.core.msg.getReaderState.targetRead = 65535 := by
  refine reachable.invariant
    (fun state => state.core.msg.getReaderState.targetRead = 65535) ?_ ?_
  · rintro ⟨core, own⟩ ⟨⟨capacity, rfl⟩, _⟩
    rw [State.fresh_getReaderState]
  · rintro source choice target before all step _
    obtain ⟨taken, _, took⟩ := System.joint_took step
    cases taken with
    | none =>
        rw [show target.core = source.core from took]
        exact all
    | some label =>
        obtain ⟨act, chosen, same⟩ := State.step_eq_some_iff.mp took
        have streams := ((placed_of_reachable before).fits label.1).streams
        rw [same, State.perform_msg, (next_takes chosen).targetRead_of_streams streams]
        exact all

/-! ## What a reader receives -/

theorem Pc.eq_readGuard_of_held {pc : Pc} {number : BitVec 64} (held : pc.held = some number) :
    pc = .readGuard number := by
  cases pc with
  | readGuard sequence => exact congrArg Pc.readGuard (Option.some.inj held)
  | _ => cases held

/-- Whether the reader has a guard whose data it has not copied. -/
def Reader.pending (reader : Reader) (pc : Pc) : Bool :=
  pc.held.isSome && reader.stage != .copied

theorem Reader.pending_resume (reader : Reader) (site : WaitSite) (ticket : Nat) :
    reader.pending site.resume = reader.pending (.parked site ticket) := by
  unfold pending
  rw [WaitSite.held_resume site ticket]

theorem Reader.pending_of_not_held {reader : Reader} {pc : Pc} (none : pc.held = none) :
    reader.pending pc = false := by
  unfold pending
  rw [none]
  rfl

theorem Reader.pending_of_held {reader : Reader} {pc : Pc} {number : BitVec 64}
    (held : pc.held = some number) (waits : reader.stage ≠ .copied) : reader.pending pc = true := by
  unfold pending
  rw [held]
  simpa using waits

/-- A reader has copied one payload for each of its guards, and these are the payloads
published first. -/
structure Reader.Receives (reader : Reader) (core : State (Party ρ τ σ)) (me : ρ) : Prop where
  guards : (History.admitted (· = .reader me) core.log).length =
    reader.received.length + (reader.pending (core.pc (.reader me))).toNat
  copied : reader.received <+: payloads core

/-- The steps of other parties keep it. -/
theorem Reader.Receives.frame {reader : Reader} {source target : State (Party ρ τ σ)} {me : ρ}
    (receives : reader.Receives source me) {party : Party ρ τ σ} {taken : Option RsIpc.Choice}
    (took : (memory ρ τ σ).Took source (taken.map fun taken => (party, taken)) target)
    (ne : .reader me ≠ party) : reader.Receives target me := by
  constructor
  · rw [view_of_took reader.pending reader.pending_resume took ne, ← receives.guards]
    cases taken with
    | none => rw [show target = source from took]
    | some call =>
        obtain ⟨act, chosen, rfl⟩ := State.step_eq_some_iff.mp took
        rcases admitStep_or_same (· = .reader me) chosen with ⟨_, _, here, _⟩ | same
        · exact absurd here.symm ne
        · rw [same]
  · exact receives.copied.trans (payloads_prefix_of_took took)

/-- Whatever a reader does next keeps it, if a stored guard shows the last message. -/
theorem ReaderMoves.receives {source target : State (Party ρ τ σ)} {me : ρ} {reader next : Reader}
    {choice : ReaderChoice} {taken : Option RsIpc.Choice}
    (moves : ReaderMoves source.msg (source.pc (.reader me)) reader choice taken next)
    (took : (memory ρ τ σ).Took source (taken.map fun taken => (.reader me, taken)) target)
    (fits : reader.stage.Fits source.msg.capacity (source.pc (.reader me)))
    (receives : reader.Receives source me)
    (shows : reader.stage = .stored →
      reader.received ++ source.msg.dataRef.toList = payloads source ∧
        (History.admitted (· = .reader me) source.log).length = (payloads source).length) :
    next.Receives target me := by
  have grows := payloads_prefix_of_took took
  have guards := receives.guards
  cases moves with
  | store number holds ready =>
      rw [show target = source from took]
      refine ⟨?_, receives.copied⟩
      have held : (source.pc (.reader me)).held = some number := by rw [holds]; rfl
      rw [guards, Reader.pending_of_held held (by rw [ready]; nofun),
        Reader.pending_of_held held fun copied => by cases copied]
  | copy stored =>
      rw [show target = source from took]
      obtain ⟨whole, all⟩ := shows stored
      constructor
      · rw [all, ← whole]
        simp [Reader.pending]
      · rw [whole]
  | new absent | read block ready =>
      obtain ⟨act, chosen, rfl⟩ := State.step_eq_some_iff.mp took
      obtain ⟨idle, rfl⟩ := next_invoke chosen
      refine ⟨?_, receives.copied.trans grows⟩
      rw [idle, Reader.pending_of_not_held rfl] at guards
      rw [State.perform_pc_self, Reader.pending_of_not_held rfl, ← guards]
      exact congrArg (fun log => (History.admitted _ log).length) (List.append_nil _)
  | run spurious running =>
      obtain ⟨act, chosen, rfl⟩ := State.step_eq_some_iff.mp took
      refine ⟨?_, receives.copied.trans grows⟩
      rw [Reader.pending_of_not_held (ReadSync.held_of_run chosen)] at guards
      rw [State.perform_pc_self]
      cases held : act.pc.held with
      | none =>
          rw [Reader.pending_of_not_held held, ← guards]
          rcases admitStep_or_same (· = .reader me) chosen with ⟨_, _, _, _, rfl⟩ | same
          · cases held
          · rw [same]
      | some number =>
          obtain ⟨_, event, lastSeenSeq, block, verify⟩ := (next_takes chosen).held held
          have reading : reader.stage ≠ .copied := by
            intro copied
            rw [copied] at fits
            obtain ⟨number, is⟩ := fits
            cases is.symm.trans verify
          rw [State.perform_log, event, History.admitted_append, List.length_append, guards,
            Reader.pending_of_held held reading]
          simp [History.admitted]
  | drop copied =>
      obtain ⟨act, chosen, rfl⟩ := State.step_eq_some_iff.mp took
      rw [copied] at fits
      obtain ⟨number, is⟩ := fits
      rw [is] at chosen guards
      cases chosen
      refine ⟨?_, receives.copied.trans grows⟩
      rw [State.perform_pc_self, Reader.pending_of_not_held rfl]
      refine (congrArg (fun log => (History.admitted _ log).length) (List.append_nil _)).trans ?_
      rw [guards]
      simp [Reader.pending, copied]
  | finish outcome done =>
      obtain ⟨act, chosen, rfl⟩ := State.step_eq_some_iff.mp took
      rw [done] at chosen guards
      cases chosen
      refine ⟨?_, receives.copied.trans grows⟩
      rw [Reader.pending_of_not_held rfl] at guards
      rw [State.perform_pc_self, Reader.pending_of_not_held rfl]
      exact (congrArg (fun log => (History.admitted _ log).length) (List.append_nil _)).trans guards

/-! ## The writer waits for the readers -/

theorem abiding_of_reachable {ok : StepCondition (Whole ρ τ σ) (Choice ρ τ σ)} {state : Whole ρ τ σ}
    (reachable : (system ρ τ closes).ReachableVia ok state) :
    (memory ρ τ σ).ReachableVia (Abiding fun _ => false) state.core :=
  (regular_of_reachable reachable).mono fun regular => regular.1

section Fintype

variable [Fintype ρ] [Fintype τ] [Fintype σ]

omit [DecidableEq ρ] [DecidableEq τ] [DecidableEq σ] in
theorem nobody_registered :
    (0 : BitVec 16).toNat = count fun _ : Party ρ τ σ => false = true :=
  (count_eq_zero_iff.mpr fun _ => Bool.false_ne_true).symm

/-- The guards of a stream show what was published. -/
theorem clean_of_reachable {ok : StepCondition (Whole ρ τ σ) (Choice ρ τ σ)} {state : Whole ρ τ σ}
    (reachable : (system ρ τ closes).ReachableVia ok state) :
    (memory ρ τ σ).ReachableVia Clean state.core := by
  refine (regular_of_reachable reachable).refine fun before step regular => ?_
  have disciplined := before.mono fun regular => regular.1.1
  refine ⟨?_, informed_of_disciplined disciplined regular.1.1, ?_⟩
  · exact registrations_le_of_disciplined nobody_registered (disciplined.step step regular.1.1)
  · exact clearsIntact_of_publishes (before.mono fun regular => regular.2)

/-- A thread that is past its wait has all readers behind it. -/
theorem awaited_of_reachable {state : Whole ρ τ σ}
    (reachable : (system ρ τ closes).ReachableVia AllRegistered state) :
    state.core.Awaited fun party => ∃ reader, party = .reader reader := by
  refine reachable.invariant
    (fun state => state.core.Awaited fun party => ∃ reader, party = .reader reader) ?_ ?_
  · rintro ⟨core, own⟩ ⟨⟨capacity, rfl⟩, _⟩ party proceeds
    exact .inl (by simp [SharedMessage.currentSequence])
  · rintro source choice target before awaited step _
    obtain ⟨taken, _, took⟩ := System.joint_took step
    cases taken with
    | none =>
        rw [show target.core = source.core from took]
        exact awaited
    | some label =>
        refine awaited.step nobody_registered (abiding_of_reachable before) took fun checking => ?_
        refine ⟨targetRead_of_reachable before, ?_⟩
        rintro party ⟨reader, rfl⟩
        obtain ⟨thread, data, _, stage, _⟩ :=
          ((placed_of_reachable before).fits label.1).writing (.inl checking)
        have begun : (source.own.threads thread).stage ≠ .absent := by
          intro absent
          cases stage.symm.trans absent
        exact (tracked_of_reachable before reader).registered
          (registered_of_begun before begun reader)

/-- No reader is more than one message behind. -/
theorem abreast_of_reachable {state : Whole ρ τ σ}
    (reachable : (system ρ τ closes).ReachableVia AllRegistered state) (reader : ρ) :
    state.core.Abreast (.reader reader) := by
  refine reachable.invariant (fun state => state.core.Abreast (.reader reader)) ?_ ?_
  · rintro ⟨core, own⟩ ⟨⟨capacity, rfl⟩, _⟩
    exact ⟨rfl, Nat.le_refl _, Nat.zero_le _⟩
  · rintro source choice target before abreast step _
    obtain ⟨taken, _, took⟩ := System.joint_took step
    cases taken with
    | none =>
        rw [show target.core = source.core from took]
        exact abreast
    | some label =>
        exact abreast.step nobody_registered (abiding_of_reachable before)
          (awaited_of_reachable before) ⟨reader, rfl⟩ took

/-- A reader with a guard has been given every message. -/
theorem all_of_guard {state : Whole ρ τ σ}
    (reachable : (system ρ τ closes).ReachableVia AllRegistered state) {me : ρ} {number : BitVec 64}
    (guard : (state.core.pc (.reader me)).guard = some number) :
    (History.admitted (· = .reader me) state.core.log).length = state.core.publishes := by
  have abiding := abiding_of_reachable reachable
  obtain ⟨current, last, _⟩ := (counted_of_abiding nobody_registered abiding).guarded _ number guard
  exact (abreast_of_reachable reachable me).length_eq abiding.reachable (last.trans current.symm)

/-- A guard shows the last message, and its reader has all the messages before. -/
theorem Reader.Receives.whole {state : Whole ρ τ σ}
    (reachable : (system ρ τ closes).ReachableVia AllRegistered state) {me : ρ}
    (receives : (state.own.readers me).Receives state.core me)
    (stored : (state.own.readers me).stage = .stored) :
    (state.own.readers me).received ++ state.core.msg.dataRef.toList = payloads state.core ∧
      (History.admitted (· = .reader me) state.core.log).length =
        (payloads state.core).length := by
  have fits : (state.own.readers me).stage.Fits state.core.msg.capacity
      (state.core.pc (.reader me)) := (placed_of_reachable reachable).fits (.reader me)
  rw [stored] at fits
  obtain ⟨number, holds⟩ := fits
  have guard : (state.core.pc (.reader me)).guard = some number := by rw [holds]; rfl
  obtain ⟨intact, _, published⟩ :=
    (shown_of_clean (clean_of_reachable reachable)).guarded _ number guard
  have all := all_of_guard reachable guard
  have length : (payloads state.core).length = state.core.publishes := List.length_map _
  have guards := receives.guards
  have held : (state.core.pc (.reader me)).held = some number := by rw [holds]; rfl
  rw [all, Reader.pending_of_held held (by rw [stored]; nofun)] at guards
  refine ⟨?_, all.trans length.symm⟩
  -- The copied payloads and the last one are all that there are.
  have nonempty : History.published state.core.log ≠ [] := List.ne_nil_of_length_pos published
  obtain ⟨before, message, split⟩ := List.eq_nil_or_concat'
    (History.published state.core.log) |>.resolve_left nonempty
  have shows := intact message (by rw [split]; simp)
  have parts : payloads state.core = before.map Message.bytes ++ [message.bytes] := by
    unfold payloads
    rw [split]
    simp
  have copied := receives.copied
  rw [parts] at copied length ⊢
  rw [shows]
  congr 1
  have short : (state.own.readers me).received.length = (before.map Message.bytes).length := by
    rw [guards] at length
    simpa using length.symm
  exact List.prefix_of_prefix_length_le copied (List.prefix_append _ _) short.le
    |>.eq_of_length short

theorem receives_of_reachable {state : Whole ρ τ σ}
    (reachable : (system ρ τ closes).ReachableVia AllRegistered state) (me : ρ) :
    (state.own.readers me).Receives state.core me := by
  refine reachable.invariant (fun state => ∀ me, (state.own.readers me).Receives state.core me)
    ?_ ?_ me
  · rintro ⟨core, own⟩ ⟨⟨capacity, rfl⟩, rfl⟩ me
    exact ⟨rfl, List.nil_prefix⟩
  · rintro source choice target before receives step _ me
    cases moves_of_step step with
    | write payload fresh short writes =>
        rw [writes.readers]
        exact receives me
    | thread thread choice moves took => exact (receives me).frame took nofun
    | reader reader choice moves took =>
        by_cases here : me = reader
        · subst here
          simp only [Function.update_self]
          exact moves.receives took ((placed_of_reachable before).fits (.reader me)) (receives me)
            fun stored => (receives me).whole before stored
        · simp only [Function.update_of_ne here]
          exact (receives me).frame took fun same => here (Party.reader.inj same)
    | stop stopper taken =>
        have took : (memory ρ τ σ).Took source.core
          ((some (.invoke .stop)).map fun taken => (.stopper stopper, taken)) _ := taken
        exact (receives me).frame took nofun
    | stopping stopper spurious running taken =>
        have took : (memory ρ τ σ).Took source.core
          ((some (if spurious then .spurious else .go)).map
            fun taken => (.stopper stopper, taken)) _ := taken
        exact (receives me).frame took nofun
    | stopped stopper outcome done taken =>
        have took : (memory ρ τ σ).Took source.core
          ((some .go).map fun taken => (.stopper stopper, taken)) _ := taken
        have same : (if closes stopper = true then { source.own with sender := none } else
            source.own).readers = source.own.readers := by
          split <;> rfl
        rw [same]
        exact (receives me).frame took nofun

end Fintype

/-! ## One payload on its way -/

/-- The reader takes the given number of steps in its call. -/
def readerRuns (count : Nat) : List (Choice (Fin 1) (Fin 2) (Fin 1)) :=
  List.replicate count (.reader 0 (.run false))

/-- The reader is constructed, the thread publishes one of two payloads, and the reader
copies it. -/
def received : Whole (Fin 1) (Fin 2) (Fin 1) :=
  (system (Fin 1) (Fin 2) fun _ => true).finish unwritten
    (.reader 0 .new :: readerRuns 2 ++ .reader 0 .finish :: .write [7] 0 :: .write [8] 0 ::
      writingOne 15 ++ .thread 0 .finish :: .reader 0 (.read true) :: readerRuns 5 ++
        [.reader 0 .store, .reader 0 .copy]) (by decide +kernel)

end RsIpc.WriteAsync
