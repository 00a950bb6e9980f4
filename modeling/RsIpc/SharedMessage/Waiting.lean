import RsIpc.SharedMessage.Phase
import RsIpc.SharedMessage.Waking

/-!
# What a writer waits for

A writer waits for readers as long as too few have consumed the current message
or some are active.  The reason ends by an update that owes a notification, by
an update of whoever holds the writer mutex, by a departure of the one reader
that was waited for, or by a registration that overflows the active count.
-/

namespace RsIpc

open Protocol.Handshake (Phase)

namespace ReadersStateCount

/-- The counts give a writer reason to wait. -/
def Pending (state : ReadersStateCount) : Prop :=
  state.dataConsumed < state.getTargetConsumed ∨ 0 < state.activeReaders

instance (state : ReadersStateCount) : Decidable state.Pending :=
  inferInstanceAs (Decidable (_ ∨ _))

/-- All registered readers are awaited, and all but one have consumed the message. -/
def OneAwaited (state : ReadersStateCount) : Prop :=
  state.activeReaders = 0 ∧ state.consumers ≤ state.targetRead ∧
    state.dataConsumed.toNat + 1 = state.consumers.toNat

instance (state : ReadersStateCount) : Decidable state.OneAwaited :=
  inferInstanceAs (Decidable (_ ∧ _))

theorem unconsumed_iff (state : ReadersStateCount) :
    state.dataConsumed < state.getTargetConsumed ↔
      state.dataConsumed.toNat < state.targetRead.toNat ∧
        state.dataConsumed.toNat < state.consumers.toNat := by
  rw [BitVec.lt_def, toNat_getTargetConsumed, Nat.lt_min]

theorem pending_of_activeReaders_ne {state : ReadersStateCount} (active : state.activeReaders ≠ 0) :
    state.Pending :=
  .inr (by bv_omega)

theorem not_pending_iff (state : ReadersStateCount) :
    ¬ state.Pending ↔ state.activeReaders = 0 ∧
      (state.targetRead.toNat ≤ state.dataConsumed.toNat ∨
        state.consumers.toNat ≤ state.dataConsumed.toNat) := by
  rw [Pending, unconsumed_iff]
  constructor
  · intro settled
    exact ⟨by bv_omega, by omega⟩
  · rintro ⟨none, consumed⟩ pending
    bv_omega

theorem OneAwaited.pending {state : ReadersStateCount} (one : state.OneAwaited) : state.Pending := by
  obtain ⟨_, awaited, last⟩ := one
  rw [BitVec.le_def] at awaited
  exact .inl (state.unconsumed_iff.mpr (by omega))

/-- A departure ends the reason to wait exactly where one reader was awaited. -/
theorem removeReader_settles_iff {state policy : ReadersStateCount}
    (run : Mutator.removeReader.run state = some policy) :
    state.Pending ∧ ¬ policy.Pending ↔ state.OneAwaited := by
  simp only [Mutator.run, Option.ite_none_left_eq_some, Option.some.injEq] at run
  obtain ⟨some, rfl⟩ := run
  have fewer : (state.consumers - 1).toNat = state.consumers.toNat - 1 := by bv_omega
  rw [not_pending_iff]
  simp only [fewer]
  constructor
  · rintro ⟨pending, none, consumed⟩
    have unconsumed := state.unconsumed_iff.mp (pending.resolve_right (by simp [none]))
    refine ⟨none, ?_, by omega⟩
    rw [BitVec.le_def]
    omega
  · intro one
    refine ⟨one.pending, one.1, ?_⟩
    have last := one.2.2
    omega

theorem removeReader_consumers_ne {state policy : ReadersStateCount}
    (run : Mutator.removeReader.run state = some policy) : policy.consumers ≠ state.consumers := by
  simp only [Mutator.run, Option.ite_none_left_eq_some, Option.some.injEq] at run
  obtain ⟨_, rfl⟩ := run
  bv_omega

theorem addReader_pending {state policy : ReadersStateCount}
    (run : Mutator.addReader.run state = some policy) (pending : state.Pending) :
    policy.Pending := by
  simp only [Mutator.run, Option.ite_none_left_eq_some, Option.some.injEq] at run
  obtain ⟨room, rfl⟩ := run
  have max : (BitVec.allOnes 16).toNat = 65535 := BitVec.toNat_allOnes
  have more : (state.consumers + 1).toNat = state.consumers.toNat + 1 := by bv_omega
  rcases pending with unconsumed | active
  · left
    rw [unconsumed_iff] at unconsumed ⊢
    simp only [more]
    omega
  · exact .inr active

/-- A registration ends the reason to wait only where the active count overflows. -/
theorem register_settles {state policy : ReadersStateCount}
    (run : Mutator.register.run state = some policy) (settled : ¬ policy.Pending) :
    state.activeReaders = BitVec.allOnes 16 ∧
      ¬ state.dataConsumed < state.getTargetConsumed := by
  cases run
  constructor
  · have max : (BitVec.allOnes 16).toNat = 65535 := BitVec.toNat_allOnes
    have none := (not_pending_iff _).mp settled |>.1
    simp only at none
    bv_omega
  · exact fun unconsumed => settled (.inl unconsumed)

end ReadersStateCount

/-- The readers word gives a writer reason to wait. -/
def SharedMessage.Pending (msg : SharedMessage) : Prop :=
  msg.getReaderState.Pending

instance (msg : SharedMessage) : Decidable msg.Pending :=
  inferInstanceAs (Decidable msg.getReaderState.Pending)

/-- A writer has to wait. -/
def SharedMessage.MustWait (msg : SharedMessage) : Prop :=
  msg.isStopped = false ∧ msg.Pending

instance (msg : SharedMessage) : Decidable msg.MustWait :=
  inferInstanceAs (Decidable (_ ∧ _))

/-- The ways in which a step ends a writer's reason to wait. -/
inductive Settles (msg : SharedMessage) (pc : Pc) (act : Act) : Prop
  | owes (owes : act.pc.owes .readerDone = true)
  | holder (holds : pc.phase.Holds)
  | overflow (lastSeenSeq : BitVec 64) (block : Bool) (sequence : BitVec 64)
      (at_ : pc = .cas (.register lastSeenSeq block sequence) msg.readersState)
      (full : msg.getReaderState.activeReaders = BitVec.allOnes 16)
      (consumed : ¬ msg.getReaderState.dataConsumed < msg.getReaderState.getTargetConsumed)
  | departure (at_ : pc = .cas .removeReader msg.readersState)
      (one : msg.getReaderState.OneAwaited)
      (fewer : (act.effect.apply msg).getReaderState.consumers ≠ msg.getReaderState.consumers)

/-- A step that ends a writer's reason to wait does so in one of these ways. -/
theorem Takes.settles {msg : SharedMessage} {pc : Pc} {act : Act} (takes : Takes msg pc act)
    (pending : msg.Pending) (settled : ¬ (act.effect.apply msg).Pending) : Settles msg pc act := by
  cases takes with
  | update site policy run =>
      rw [SharedMessage.Pending, SharedMessage.getReaderState_mutate run] at settled
      cases site with
      | register lastSeenSeq block sequence =>
          obtain ⟨full, consumed⟩ := ReadersStateCount.register_settles run settled
          exact .overflow lastSeenSeq block sequence rfl full consumed
      | unregister lastSeenSeq block => exact .owes rfl
      | release sequence =>
          refine .owes ?_
          have none := (policy.not_pending_iff.mp settled).1
          simp only [UpdateSite.after, none, if_true]
          rfl
      | resetConsumed size => exact .holder (.inr (.inr rfl))
      | setTarget count => exact .holder (.inl rfl)
      | addReader => exact absurd (ReadersStateCount.addReader_pending run pending) settled
      | removeReader =>
          have one := (ReadersStateCount.removeReader_settles_iff run).mp ⟨pending, settled⟩
          refine .departure rfl one ?_
          rw [SharedMessage.getReaderState_mutate run]
          exact ReadersStateCount.removeReader_consumers_ne run
  | notify site =>
      rw [SharedMessage.Pending, Effect.getReaderState_apply] at settled
      exact absurd pending settled
  | _ => exact absurd pending settled

/-- The step that stops the memory goes on to notify everybody. -/
theorem Takes.stops {msg : SharedMessage} {pc : Pc} {act : Act} (takes : Takes msg pc act)
    (running : msg.isStopped = false) (stopped : (act.effect.apply msg).isStopped = true) :
    act.pc = .notify .stopReaders := by
  rw [SharedMessage.isStopped, Effect.getSequenceState_apply] at stopped
  cases takes with
  | setStopped => rfl
  | _ => exact absurd (running.symm.trans stopped) (by decide)

end RsIpc
