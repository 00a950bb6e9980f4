import RsIpc.SharedMessage.Broadcast
import RsIpc.SharedMessage.Within

/-!
# Streams

The calls of a stream register readers, read, write slices that fit, and stop.
None of them abandons a write, takes a reader out or changes the target, and a
slice reaches its publish unaltered.
-/

namespace RsIpc

open Protocol Protocol.Handshake Transition

universe u

/-! ## The calls of a stream -/

def Operation.Streams (capacity : Nat) : Operation → Prop
  | .writeSlice newData => newData.length ≤ capacity
  | .read _ _ | .stop | .addReader => True
  | .write | .setTargetReadCount _ | .removeReader => False

/-- The party is in no call, or in one of a stream. -/
def Pc.Streams (capacity : Nat) (pc : Pc) : Prop :=
  pc = .idle ∨ ∃ operation : Operation, operation.Streams capacity ∧ pc.Within capacity operation

/-- A write of a stream ends with a publish, or before it has started writing. -/
theorem Takes.publishes_of_streams {msg : SharedMessage} {pc : Pc} {act : Act}
    (takes : Takes msg pc act) (streams : pc.Streams msg.capacity) (writing : pc.phase = .writing) :
    act.pc.phase ≠ .outside := by
  intro outside
  have effect : act.effect = .unlock := by
    cases takes.move with
    | abandon was is now => exact is
    | observe same is | notify which same is | wake which same is | setStopped same is =>
        exact absurd (writing.symm.trans (same.symm.trans outside)) (by decide)
    | storeByte index byte was is now | storeSize size was is now | resetConsumed was is now
    | publish was is now | drained none was is now =>
        exact absurd (now.symm.trans outside) (by decide)
    | lock free was is now | setWriting was is now | clearWriting was is now | unlock was is now
    | setTarget count was is now | register was is now | granted down was is now
    | unregister was is now | release was is now | addReader was is now | removeReader was is now =>
        exact absurd (was.symm.trans writing) (by decide)
  rcases streams with rfl | ⟨operation, streams, within⟩
  · cases writing
  · cases takes with
    | unlock outcome => cases writing
    | abandon outcome =>
        obtain ⟨_, newData, rfl, large⟩ := within
        exact absurd streams (Nat.not_le_of_lt large)
    | refuseSize size large | dropWrite =>
        subst within
        exact streams
    | _ => cases effect

/-- No reader of a stream leaves. -/
theorem Takes.not_left_of_streams {msg : SharedMessage} {pc : Pc} {act : Act}
    (takes : Takes msg pc act) (streams : pc.Streams msg.capacity) : act.event ≠ some .left := by
  intro left
  cases takes.record with
  | left at_ effect event next =>
      rcases streams with idle | ⟨operation, streams, within⟩
      · rw [at_] at idle
        cases idle
      · rw [at_] at within
        change Operation.removeReader = operation at within
        subst within
        exact streams
  | silent event quiet =>
      rw [event] at left
      cases left
  | published size at_ is | admitted lastSeenSeq block sequence at_ down same is
  | ended lastSeenSeq block ticket at_ stopped same is =>
      rw [is] at left
      cases left
  | released sequence at_ effect event | joined at_ effect event next =>
      rw [event] at left
      cases left

/-- The target of a stream stays. -/
theorem Takes.targetRead_of_streams {msg : SharedMessage} {pc : Pc} {act : Act}
    (takes : Takes msg pc act) (streams : pc.Streams msg.capacity) :
    (act.effect.apply msg).getReaderState.targetRead = msg.getReaderState.targetRead := by
  cases takes with
  | update site policy run =>
      rw [SharedMessage.getReaderState_mutate run]
      cases site with
      | setTarget count =>
          rcases streams with idle | ⟨operation, streams, within⟩
          · cases idle
          · change Operation.setTargetReadCount count = operation at within
            subst within
            exact streams.elim
      | addReader | removeReader =>
          simp only [UpdateSite.mutator, Mutator.run, Option.ite_none_left_eq_some,
            Option.some.injEq] at run
          rw [← run.2]
      | _ =>
          cases run
          rfl
  | notify site => rw [Effect.getReaderState_apply]
  | _ => rfl

/-! ## From the slice to its publish -/

/-- Whoever copies the data has copied its first bytes, and whoever publishes it has
copied it whole. -/
structure Pc.Carries (buffer newData : List UInt8) (pc : Pc) : Prop where
  copied : ∀ slice index, pc = .copy slice index → buffer.take index = newData.take index
  whole : ∀ size, pc.publishing = some size → buffer.take size = newData

theorem Pc.carries_of_not_writing {pc : Pc} (phase : pc.phase ≠ .writing)
    (buffer newData : List UInt8) : pc.Carries buffer newData where
  copied := by
    rintro slice index rfl
    exact absurd rfl phase
  whole _ publishing := absurd (Pc.phase_of_publishing publishing) phase

theorem WaitSite.carries_resume (buffer newData : List UInt8) (site : WaitSite) (ticket : Nat) :
    site.resume.Carries buffer newData = (Pc.parked site ticket).Carries buffer newData := by
  have waiting : ∀ pc : Pc, pc = site.resume ∨ pc = .parked site ticket → pc.phase ≠ .writing := by
    rintro pc (rfl | rfl) <;> cases site <;> nofun
  exact propext ⟨fun _ => Pc.carries_of_not_writing (waiting _ (.inr rfl)) _ _,
    fun _ => Pc.carries_of_not_writing (waiting _ (.inl rfl)) _ _⟩

theorem take_succ_set (buffer : List UInt8) (index : Nat) (byte : UInt8)
    (bound : index < buffer.length) :
    (buffer.set index byte).take (index + 1) = buffer.take index ++ [byte] := by
  have inside : index < (buffer.set index byte).length := by simpa using bound
  rw [List.take_succ_eq_append_getElem inside, List.getElem_set_self]
  rw [List.take_set_of_le (Nat.le_refl index)]

/-- One step of `write_slice` copies one more byte, or keeps what it has copied. -/
theorem Takes.carries {msg : SharedMessage} {pc : Pc} {act : Act} (takes : Takes msg pc act)
    {newData : List UInt8} (within : pc.Within msg.capacity (.writeSlice newData))
    (carries : pc.Carries msg.data newData) :
    act.pc.Carries (act.effect.apply msg).data newData := by
  cases takes with
  | drainedSlice slice ticket none fits =>
      constructor
      · intro _ index is
        cases is
        rfl
      · intro size publishing
        cases publishing
  | copyByte slice index bound =>
      obtain ⟨is, fits⟩ := within
      cases is
      constructor
      · intro _ next is
        cases is
        have copied := carries.copied newData index rfl
        change (msg.data.set index newData[index]).take (index + 1) = _
        rw [take_succ_set _ _ _ (Nat.lt_of_lt_of_le bound fits), copied,
          List.take_succ_eq_append_getElem bound]
      · intro size publishing
        cases publishing
  | copied slice index bound =>
      obtain ⟨is, _⟩ := within
      cases is
      constructor
      · intro _ next is
        cases is
      · intro size publishing
        cases publishing
        have copied := congrArg (List.take newData.length) (carries.copied newData index rfl)
        rw [List.take_take, List.take_take, Nat.min_eq_left bound, List.take_length] at copied
        exact copied
  | loadPacked size | exchangeFails size oldPacked =>
      constructor
      · intro _ next is
        cases is
      · exact carries.whole
  | unchanged size at_ same =>
      constructor
      · intro _ next is
        cases is
      · intro stored publishing
        exact carries.whole stored (at_.publishing.trans publishing)
  | compute site at_ =>
      constructor
      · intro _ next is
        cases is
      · intro stored publishing
        exact carries.whole stored (at_.publishing.trans publishing)
  | update site policy run =>
      cases site with
      | resetConsumed size =>
          constructor
          · intro _ next is
            cases is
          · intro stored publishing
            rw [Effect.data_apply]
            exact carries.whole stored publishing
      | _ => cases within
  | waitReturns site ticket spins changed | wakeUp site ticket =>
      refine Pc.carries_of_not_writing ?_ _ _
      cases site <;> nofun
  | spin site ticket spins same | park site ticket same =>
      refine Pc.carries_of_not_writing ?_ _ _
      cases site <;> nofun
  | notify site | wake site =>
      refine Pc.carries_of_not_writing ?_ _ _
      cases site <;> nofun
  | invoke operation | drainedGuard ticket none => cases within
  | drainedLarge slice ticket none large | abandon outcome =>
      constructor
      · intro _ next is
        cases is
      · intro size publishing
        cases publishing
  | store index byte bound | publish size fits => cases within
  | _ =>
      refine Pc.carries_of_not_writing ?_ _ _
      nofun

end RsIpc
