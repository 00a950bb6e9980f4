import RsIpc.SharedMessage.Abandon
import RsIpc.SharedMessage.History
import RsIpc.SharedMessage.Waiting

/-!
# Sleeping readers

A reader sleeps because there is nothing new, or because a write is in progress.
A publish and a stop end these reasons and notify.  The give-up branch of
`start_write` lowers the flag and notifies nobody, so a reader that went to
sleep after the stop had notified stays asleep.
-/

namespace RsIpc

open Protocol.Handshake Transition

universe u

/-- The argument and the ticket with which a call of `read` waits. -/
def Pc.reading : Pc → Option (BitVec 64 × Nat)
  | .wait (.reader lastSeenSeq _) ticket _ | .parked (.reader lastSeenSeq _) ticket =>
      some (lastSeenSeq, ticket)
  | _ => none

theorem WaitSite.reading_resume (site : WaitSite) : site.resume.reading = none := by
  cases site <;> rfl

theorem Pc.ticket_of_reading {pc : Pc} {lastSeenSeq : BitVec 64} {ticket : Nat}
    (reading : pc.reading = some (lastSeenSeq, ticket)) : pc.ticket = some (.writer, ticket) := by
  cases pc with
  | wait site other spins | parked site other =>
      cases site <;> cases reading
      rfl
  | _ => cases reading

/-- A call of `read` waits for a new message or for the end of a write. -/
theorem Takes.reading {msg : SharedMessage} {pc : Pc} {act : Act} (takes : Takes msg pc act)
    {lastSeenSeq : BitVec 64} {ticket : Nat}
    (reading : act.pc.reading = some (lastSeenSeq, ticket)) :
    act.effect = .observe ∧ (pc.reading = some (lastSeenSeq, ticket) ∨
      msg.isStopped = false ∧ msg.currentSequence = lastSeenSeq ∨
        msg.getSequenceState.writingInProgress = true) := by
  cases takes with
  | readWait last block other reason =>
      cases reading
      refine ⟨rfl, .inr ?_⟩
      rcases reason with new | ⟨_, busy⟩
      · exact .inl new
      · exact .inr busy
  | spin site other spins same | park site other same =>
      cases site with
      | reader last block => exact ⟨rfl, .inl reading⟩
      | _ => cases reading
  | notify site => cases site <;> cases reading
  | wake site => cases site <;> cases reading
  | invoke operation => cases operation <;> cases reading
  | waitReturns site other spins changed | wakeUp site other => cases site <;> cases reading
  | update site policy run =>
      cases site with
      | release sequence =>
          simp only [UpdateSite.after] at reading
          split at reading <;> cases reading
      | _ => cases reading
  | _ => cases reading

variable {ι : Type u}

/-- The give-up branch lowers the flag only where every call of `read` that waits on
a current ticket is still owed a notification. -/
def ClearsOwing : StepCondition (State ι) (ι × Choice) :=
  fun source label _ => source.pc label.1 = .clearWriting → ∀ reader,
    ∀ waiting ∈ (source.pc reader).reading, waiting.2 = source.msg.notified .writer →
      source.Owed .writer

/-- A waiting reader has a reason, or somebody owes it a notification. -/
def State.Excused (state : State ι) (lastSeenSeq : BitVec 64) : Prop :=
  (state.msg.isStopped = false ∧ state.msg.currentSequence = lastSeenSeq) ∨
    state.msg.getSequenceState.writingInProgress = true ∨ state.Owed .writer

variable [DecidableEq ι] {targetRead consumers : BitVec 16}

/-- A step that ends a reader's reason owes it a notification, or somebody does. -/
theorem excused_of_step {source target : State ι} {party : ι} {choice : Choice}
    (step : source.step (party, choice) = some target)
    (same : target.msg.notified .writer = source.msg.notified .writer) {lastSeenSeq : BitVec 64}
    (clears : source.pc party = .clearWriting → source.Owed .writer)
    (excused : source.Excused lastSeenSeq) : target.Excused lastSeenSeq := by
  have owed : source.Owed .writer → target.Excused lastSeenSeq :=
    fun debt => .inr (.inr (owed_of_step step debt same))
  obtain ⟨act, next, rfl⟩ := State.step_eq_some_iff.mp step
  have takes := next_takes next
  have debt : act.pc.owes .writer = true → (source.perform party act).Excused lastSeenSeq :=
    fun owes => .inr (.inr ⟨party, by rwa [State.perform_pc_self]⟩)
  rcases excused with ⟨running, new⟩ | busy | owes
  · cases stopped : (act.effect.apply source.msg).isStopped with
    | true =>
        refine debt ?_
        rw [takes.stops running stopped]
        rfl
    | false =>
        by_cases moved : (act.effect.apply source.msg).currentSequence = source.msg.currentSequence
        · exact .inl ⟨stopped, moved.trans new⟩
        · obtain ⟨message, _, publishes⟩ := takes.publishes moved
          refine debt ?_
          rw [publishes]
          rfl
  · cases flag : (act.effect.apply source.msg).getSequenceState.writingInProgress with
    | true => exact .inr (.inl flag)
    | false =>
        rcases takes.lowers busy flag with ⟨message, _, publishes⟩ | clear
        · refine debt ?_
          rw [publishes]
          rfl
        · exact owed (clears clear)
  · exact owed owes

/-- Along a run whose give-up branches lower the flag under nobody, a waiting
reader whose ticket is current is excused. -/
theorem excused_of_reading {state : State ι}
    (reachable : (system ι targetRead consumers).ReachableVia ClearsOwing state) {party : ι}
    {lastSeenSeq : BitVec 64} {ticket : Nat}
    (reading : (state.pc party).reading = some (lastSeenSeq, ticket))
    (current : ticket = state.msg.notified .writer) : state.Excused lastSeenSeq := by
  refine reachable.invariant (fun state => ∀ party lastSeenSeq ticket,
    (state.pc party).reading = some (lastSeenSeq, ticket) → ticket = state.msg.notified .writer →
      state.Excused lastSeenSeq) ?_ ?_ party lastSeenSeq ticket reading current
  · rintro _ ⟨capacity, rfl⟩ party lastSeenSeq ticket reading
    cases reading
  · rintro source ⟨party, choice⟩ target before excused step clears other lastSeenSeq ticket reading
      rfl
    have same := notified_same_of_step before.reachable step (Pc.ticket_of_reading reading)
    by_cases here : other = party
    · subst here
      obtain ⟨act, next, rfl⟩ := State.step_eq_some_iff.mp step
      rw [State.perform_pc_self] at reading
      obtain ⟨observe, reason⟩ := (next_takes next).reading reading
      refine excused_of_step step same (fun clear => ?_) ?_
      · rw [clear] at next
        cases next_clearWriting next
        cases observe
      · rcases reason with waiting | new | busy
        · exact excused other lastSeenSeq _ waiting same
        · exact .inl new
        · exact .inr (.inl busy)
    · have stays : target.pc other = source.pc other := by
        obtain ⟨act, next, rfl⟩ := State.step_eq_some_iff.mp step
        rw [State.perform_pc_of_ne source here] at reading ⊢
        exact Pc.after_self Pc.reading WaitSite.reading_resume reading
      rw [stays] at reading
      exact excused_of_step step same (fun clear => clears clear other _ reading same)
        (excused other lastSeenSeq _ reading same)

/-- The runs in which no reader is left asleep: no write is abandoned, notifications
are few between ticket and park, and no give-up branch lowers the flag under a
reader that nobody notifies. -/
def Considerate : StepCondition (State ι) (ι × Choice) :=
  fun source label target => Publishes source label target ∧ Timely source label target ∧
    ClearsOwing source label target

/-- In a considerate run a reader that sleeps on a current ticket waits for a new
message, or some party holds the writer mutex, or some party owes a notification.
When the memory is stopped, nobody holds the mutex and nobody is notifying, no
reader sleeps. -/
theorem sleeping_reader_is_excused {state : State ι}
    (reachable : (zeroed ι).ReachableVia Considerate state) :
    (∀ party lastSeenSeq block ticket,
      state.pc party = .parked (.reader lastSeenSeq block) ticket →
      ticket = state.msg.notified .writer ∨ ¬ state.Waking .writer →
        (state.msg.isStopped = false ∧ state.msg.currentSequence = lastSeenSeq) ∨
          (∃ holder, (state.pc holder).phase.Holds) ∨ state.Owed .writer) ∧
    (state.msg.isStopped = true → (¬ ∃ holder, (state.pc holder).phase.Holds) →
      ¬ state.Owed .writer → ¬ state.Waking .writer →
        ∀ party lastSeenSeq block ticket,
          state.pc party ≠ .parked (.reader lastSeenSeq block) ticket) := by
  have excuse : ∀ party lastSeenSeq block ticket,
      state.pc party = .parked (.reader lastSeenSeq block) ticket →
      ticket = state.msg.notified .writer ∨ ¬ state.Waking .writer →
        (state.msg.isStopped = false ∧ state.msg.currentSequence = lastSeenSeq) ∨
          (∃ holder, (state.pc holder).phase.Holds) ∨ state.Owed .writer := by
    intro party lastSeenSeq block ticket parked current
    have current : ticket = state.msg.notified .writer := by
      rcases current with now | asleep
      · exact now
      · exact (current_or_waking (reachable.mono fun fine => fine.2.1) parked).resolve_right asleep
    have reading : (state.pc party).reading = some (lastSeenSeq, ticket) := by
      rw [parked]
      rfl
    rcases excused_of_reading (reachable.mono fun fine => fine.2.2) reading current with
      new | busy | owed
    · exact .inl new
    · obtain ⟨writer, raised⟩ := flag_raised_of_publishes (reachable.mono fun fine => fine.1) busy
      exact .inr (.inl ⟨writer, raised.holds⟩)
    · exact .inr (.inr owed)
  refine ⟨excuse, ?_⟩
  intro stopped free settled asleep party lastSeenSeq block ticket parked
  rcases excuse party lastSeenSeq block ticket parked (.inr asleep) with ⟨running, _⟩ | holder | owed
  · exact absurd (running.symm.trans stopped) (by decide)
  · exact free holder
  · exact settled owed

/-! ## Two sleepers -/

/-- A spin phase of a reader changes nothing that considerate runs look at. -/
theorem considerate_spin {state : State ι} {party : ι} {lastSeenSeq : BitVec 64} {block : Bool}
    {ticket : Nat} (close : state.msg.notified .writer < ticket + 2 ^ 32) (spins : Nat)
    (next : Pc) :
    Considerate (state.perform party (.goto (.wait (.reader lastSeenSeq block) ticket spins)))
      (party, .go) (state.perform party (.goto next)) := by
  refine ⟨?_, timely_spin close spins, ?_⟩
  · rintro ⟨writes, _⟩
    rw [State.perform_pc_self] at writes
    cases writes
  · intro clear
    rw [State.perform_pc_self] at clear
    cases clear

instance (source : State ι) (label : ι × Choice) (target : State ι) :
    Decidable (Publishes source label target) :=
  inferInstanceAs (Decidable (¬ (_ ∧ _)))

instance [Fintype ι] (source : State ι) (label : ι × Choice) (target : State ι) :
    Decidable (ClearsOwing source label target) :=
  have (reader : ι) : Decidable (∀ waiting ∈ (source.pc reader).reading,
      waiting.2 = source.msg.notified .writer → source.Owed .writer) :=
    Option.decidableForallMem _
  inferInstanceAs (Decidable (_ → ∀ reader, ∀ waiting ∈ (source.pc reader).reading, _))

instance [Fintype ι] (source : State ι) (label : ι × Choice) (target : State ι) :
    Decidable (Considerate source label target) :=
  inferInstanceAs (Decidable (_ ∧ _ ∧ _))

/-- A reader is about to sleep on fresh memory. -/
def earlyReader : State (Fin 1) :=
  (zeroed (Fin 1)).finish (State.fresh (Fin 1) 1 0 0) (calls 0 (.read 0 true) 2)
    (by decide +kernel)

theorem earlyReader_waits_for_news :
    (earlyReader.perform 0 (.goto (.parked (.reader 0 true) 0))).msg.isStopped = false := by
  have reachable := reachableVia_parked (System.reachableVia_finish (initial_fresh (Fin 1) 1 0 0) _
      (by decide +kernel)) (by decide +kernel : earlyReader.pc 0 = .wait (.reader 0 true) 0 1000)
    (by decide +kernel) (considerate_spin (by decide +kernel))
  have excused := (sleeping_reader_is_excused reachable).1 0 0 true 0
    (State.perform_pc_self _ _ _) (.inl (by decide +kernel))
  exact (excused.resolve_right (by decide +kernel)).1

/-- While a reader holds a guard, a writer raises the flag and the memory is stopped;
another reader finds the flag up, and then the writer gives up. -/
def lateReader : State (Fin 4) :=
  (zeroed (Fin 4)).finish (State.fresh (Fin 4) 1 0 0)
    (calls 0 (.writeSlice [7]) 16 ++ calls 1 (.read 0 true) 5 ++ calls 0 .write 7 ++
      calls 2 .stop 6 ++ calls 3 (.read 0 true) 2 ++ advances 0 4) (by decide +kernel)

/-- The second reader sleeps. -/
def abandonedReader : State (Fin 4) :=
  lateReader.perform 3 (.goto (.parked (.reader 0 true) 2))

/-- The reader sleeps on a current ticket, the memory is stopped, the mutex is free,
and nobody has anything left to do but the first reader, which holds its guard. -/
theorem abandonedReader_sleeps :
    (zeroed (Fin 4)).ReachableVia
        (fun source label target => Publishes source label target ∧ Timely source label target)
        abandonedReader ∧
      abandonedReader.pc 3 = .parked (.reader 0 true) 2 ∧
      abandonedReader.msg.notified .writer = 2 ∧ abandonedReader.msg.isStopped = true ∧
      abandonedReader.pc 0 = .idle ∧ abandonedReader.pc 1 = .readGuard 1 ∧
      abandonedReader.pc 2 = .idle :=
  ⟨reachableVia_parked (System.reachableVia_finish (initial_fresh (Fin 4) 1 0 0) _
      (by decide +kernel))
    (by decide +kernel : lateReader.pc 3 = .wait (.reader 0 true) 2 1000) (by decide +kernel)
    (fun spins next => ⟨(considerate_spin (by decide +kernel) spins next).1,
      timely_spin (by decide +kernel) spins⟩),
    by decide +kernel⟩

end RsIpc
