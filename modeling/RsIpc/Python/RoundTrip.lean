import RsIpc.Python.ReadGuard
import RsIpc.SharedMessage.Takes

/-!
# Chunks written, bytes read

The calls on a write guard are steps of its holder in the program.  Chunks written
one after another on a fresh guard and published at the cursor are what a read
guard of the message shows.
-/

namespace RsIpc

open Transition

universe u

/-! ## Publishing at the cursor -/

/-- The words after `publish_write` and the drop of the writer guard. -/
def SharedMessage.publishWrite (msg : SharedMessage) (size : Nat) : SharedMessage :=
  [.storeSize size, .mutate .resetConsumed, .publish, .notify .writer, .wake .writer, .unlock].foldl
    (fun msg effect => Effect.apply effect msg) msg

/-- `PythonWriteGuard::publish`; a size beyond the capacity drops the guard. -/
def PythonWriteGuard.publish (msg : SharedMessage) (guard : PythonWriteGuard)
    (size : Option (BitVec 64)) :
    PyResult (Option (BitVec 64)) × SharedMessage × PythonWriteGuard :=
  if guard.held = false then (.error .published, msg, guard)
  else
    let finalSize := (size.getD guard.cursor).toNat
    if msg.capacity < finalSize then
      (.ok none, Effect.unlock.apply msg, { guard with held := false })
    else
      (.ok (some msg.getSequenceState.nextSequence), msg.publishWrite finalSize,
        { guard with held := false })

theorem SharedMessage.dataRef_publishWrite (msg : SharedMessage) {size : Nat}
    (fits : size ≤ msg.capacity) : (msg.publishWrite size).dataRef = some (msg.data.take size) := by
  have stored : (msg.publishWrite size).dataSize = size := by
    simp only [publishWrite, List.foldl, Effect.dataSize_apply]
  have kept : (msg.publishWrite size).data = msg.data := by
    simp only [publishWrite, List.foldl, Effect.data_apply]
  rw [dataRef, capacity, stored, kept]
  exact if_pos fits

/-! ## Chunks -/

/-- The bytes of the chunks one after another. -/
def concat (chunks : List PyBuffer) : List UInt8 :=
  (chunks.map PyBuffer.bytes).flatten

@[simp]
theorem concat_cons (chunk : PyBuffer) (chunks : List PyBuffer) :
    concat (chunk :: chunks) = chunk.bytes ++ concat chunks :=
  rfl

/-- The chunks are written one after another. -/
def PythonWriteGuard.writeAll (msg : SharedMessage) (guard : PythonWriteGuard) :
    List PyBuffer → List (PyResult (BitVec 64)) × SharedMessage × PythonWriteGuard
  | [] => ([], msg, guard)
  | chunk :: chunks =>
      let (result, written, next) := guard.write msg chunk
      let (results, last) := writeAll written next chunks
      (result :: results, last)

@[simp]
theorem PythonWriteGuard.toNat_cursor_new : new.cursor.toNat = 0 :=
  rfl

/-- Chunks that fit are all stored, the cursor stands behind them, and in front of
them the buffer is what it was. -/
theorem PythonWriteGuard.writeAll_eq {msg : SharedMessage} {guard : PythonWriteGuard}
    {chunks : List PyBuffer} (held : guard.held = true) (addressable : msg.capacity < 2 ^ 64)
    (fits : guard.cursor.toNat + (concat chunks).length ≤ msg.capacity) :
    ∃ written last, writeAll msg guard chunks =
        (chunks.map fun chunk => .ok chunk.lenBytes, written, last) ∧
      last.held = true ∧ last.cursor.toNat = guard.cursor.toNat + (concat chunks).length ∧
      written.capacity = msg.capacity ∧
      written.data.take (guard.cursor.toNat + (concat chunks).length) =
        msg.data.take guard.cursor.toNat ++ concat chunks := by
  induction chunks generalizing msg guard with
  | nil => exact ⟨msg, guard, rfl, held, rfl, rfl, (List.append_nil _).symm⟩
  | cons chunk chunks ih =>
      rw [concat_cons, List.length_append] at fits
      rw [concat_cons, List.length_append]
      have small : guard.cursor.toNat + chunk.bytes.length < 2 ^ 64 := by omega
      have inside : guard.cursor.toNat + chunk.bytes.length ≤ msg.capacity := by omega
      have first := write_of_le held small inside
      have moved := toNat_stop small
      have room := msg.capacity_copyIn guard.cursor.toNat chunk.bytes
      have front := msg.take_copyIn guard.cursor.toNat chunk.bytes inside
      obtain ⟨written, last, all, holds, reached, capacity, bytes⟩ :=
        @ih (msg.copyIn guard.cursor.toNat chunk.bytes)
          { guard with cursor := guard.cursor + chunk.lenBytes } held
          (by rw [room]; exact addressable)
          (by rw [room, moved, Nat.add_assoc]; exact fits)
      rw [moved, Nat.add_assoc] at reached bytes
      refine ⟨written, last, ?_, holds, reached, capacity.trans room, ?_⟩
      · rw [writeAll, first]
        dsimp only
        rw [all]
        rfl
      · rw [bytes, front, List.append_assoc]

/-- What is published at the cursor after the chunks were written on a fresh guard. -/
def PythonWriteGuard.publishAll (msg : SharedMessage) (chunks : List PyBuffer) :
    PyResult (Option (BitVec 64)) × SharedMessage × PythonWriteGuard :=
  publish (writeAll msg new chunks).2.1 (writeAll msg new chunks).2.2 none

section Holder

variable {ι : Type u} [DecidableEq ι]

/-- The stores of a write are steps of the holder, which keeps its guard. -/
theorem alone_copyIn {party : ι} {state : State ι} (holds : state.pc party = .writeGuard)
    (start : Nat) (bytes : List UInt8) (fits : start + bytes.length ≤ state.msg.capacity) :
    Alone party state { state with msg := state.msg.copyIn start bytes } := by
  induction bytes generalizing start state with
  | nil => exact Alone.refl party state
  | cons byte bytes copied =>
      rw [List.length_cons] at fits
      have bound : start < state.msg.capacity := by omega
      have taken : next state.msg (.store start byte) (state.pc party) =
          some ⟨.storeByte start byte, .writeGuard, none⟩ := by
        rw [holds]
        exact if_pos bound
      have stays : state.perform party ⟨.storeByte start byte, .writeGuard, none⟩ =
          { state with msg := (Effect.storeByte start byte).apply state.msg } := by
        have pc : (state.perform party ⟨.storeByte start byte, .writeGuard, none⟩).pc = state.pc := by
          funext other
          by_cases here : other = party
          · rw [here, State.perform_pc_self, holds]
          · exact State.perform_pc_of_ne state here _
        rw [State.mk.injEq]
        exact ⟨rfl, pc, List.append_nil _⟩
      have rest : Alone party { state with msg := (Effect.storeByte start byte).apply state.msg }
          { state with msg := state.msg.copyIn start (byte :: bytes) } :=
        @copied { state with msg := (Effect.storeByte start byte).apply state.msg } holds (start + 1)
          (by rw [Effect.capacity_apply]; omega)
      exact Alone.step taken (by rw [stays]; exact rest)

open PythonWriteGuard in
/-- `write` is done by steps of the holder alone. -/
theorem alone_write {party : ι} {state : State ι} (holds : state.pc party = .writeGuard)
    {guard : PythonWriteGuard} (data : PyBuffer) :
    Alone party state { state with msg := (guard.write state.msg data).2.1 } := by
  unfold write
  split
  · exact Alone.refl party state
  · dsimp only
    split
    · exact Alone.refl party state
    · split
      · exact Alone.refl party state
      · rename_i inside ordered
        refine alone_copyIn holds _ _ ?_
        rw [BitVec.lt_def, BitVec.toNat_add, PyBuffer.toNat_lenBytes] at ordered
        rw [BitVec.toNat_add, PyBuffer.toNat_lenBytes] at inside
        have short := data.length_lt
        have cursor := guard.cursor.isLt
        omega

open PythonWriteGuard in
/-- The chunks are written by steps of the holder alone. -/
theorem alone_writeAll {party : ι} {state : State ι} (holds : state.pc party = .writeGuard)
    (guard : PythonWriteGuard) (chunks : List PyBuffer) :
    Alone party state { state with msg := (guard.writeAll state.msg chunks).2.1 } := by
  induction chunks generalizing state guard with
  | nil => exact Alone.refl party state
  | cons chunk chunks ih =>
      have first : Alone party state { state with msg := (guard.write state.msg chunk).2.1 } :=
        alone_write holds chunk
      exact first.trans (@ih { state with msg := (guard.write state.msg chunk).2.1 } holds
        (guard.write state.msg chunk).2.2)

/-- The steps of `update_reader_state` in `publish_write`, nobody else stepping. -/
theorem alone_resetConsumed {party : ι} {state target : State ι} {size : Nat}
    (resets : state.pc party = .update (.resetConsumed size))
    (rest : Alone party (state.perform party ⟨.mutate .resetConsumed, .loadPacked size, none⟩)
      target) : Alone party state target := by
  have taken : next state.msg .go (state.pc party) =
      some (attempt (.resetConsumed size) state.msg.readersState) := by
    rw [resets]
    rfl
  by_cases unchanged : ReadersStateCount.toPacked { ReadersStateCount.ofPacked state.msg.readersState
      with dataConsumed := 0 } = state.msg.readersState
  · have same : (Effect.mutate .resetConsumed).apply state.msg = state.msg :=
      congrArg (fun word => { state.msg with readersState := word }) unchanged
    have early : attempt (.resetConsumed size) state.msg.readersState =
        ⟨.observe, .loadPacked size, none⟩ := if_pos unchanged
    have after : state.perform party ⟨.mutate .resetConsumed, .loadPacked size, none⟩ =
        state.perform party ⟨.observe, .loadPacked size, none⟩ := by
      rw [State.mk.injEq]
      exact ⟨same, rfl, rfl⟩
    rw [after] at rest
    exact Alone.step taken (by rw [early]; exact rest)
  · have tries : attempt (.resetConsumed size) state.msg.readersState =
        .goto (.cas (.resetConsumed size) state.msg.readersState) := if_neg unchanged
    rw [tries] at taken
    refine Alone.step taken ?_
    have exchanged : next state.msg .go
        ((state.perform party (.goto (.cas (.resetConsumed size) state.msg.readersState))).pc party) =
          some ⟨.mutate .resetConsumed, .loadPacked size, none⟩ := by
      rw [State.perform_pc_self]
      exact congrArg some (if_pos ⟨rfl, rfl⟩)
    refine Alone.step exchanged ?_
    rw [State.perform_goto]
    exact rest

/-- From the exchange on, `publish` publishes, notifies and releases the mutex. -/
theorem alone_exchange {party : ι} {state : State ι} {size : Nat}
    (current : state.pc party = .exchange size state.msg.sequenceAndFlags) :
    ∃ target, Alone party state target ∧
      target.msg = Effect.unlock.apply ((Effect.wake .writer).apply
        ((Effect.notify .writer).apply (Effect.publish.apply state.msg))) ∧
      target.pc party = .done (.sequence state.msg.getSequenceState.nextSequence) := by
  have exchanged : exchangeStep state.msg size state.msg.sequenceAndFlags false =
      ⟨.publish, .notify (.published state.msg.getSequenceState.nextSequence), some (.published
        ⟨state.msg.getSequenceState.nextSequence, size, state.msg.data.take size⟩)⟩ :=
    if_pos ⟨rfl, rfl⟩
  refine Alone.advance current (congrArg some exchanged) fun publishing => ?_
  refine Alone.advance publishing rfl fun notifying => ?_
  refine Alone.advance notifying rfl fun waking => ?_
  refine Alone.advance waking rfl fun unlocking => ?_
  exact ⟨_, Alone.refl party _, rfl, unlocking⟩

/-- `publish` is done by steps of the holder alone. -/
theorem alone_publishWrite {party : ι} {state : State ι} (holds : state.pc party = .writeGuard)
    {size : Nat} (fits : size ≤ state.msg.capacity) :
    ∃ target, Alone party state target ∧ target.msg = state.msg.publishWrite size ∧
      target.pc party = .done (.sequence state.msg.getSequenceState.nextSequence) := by
  have stored : next state.msg (.publish size) (state.pc party) =
      some ⟨.storeSize size, .update (.resetConsumed size), none⟩ := by
    rw [holds]
    exact if_neg (Nat.not_lt_of_le fits)
  obtain ⟨target, run, arrived, done⟩ : ∃ target,
      Alone party ((state.perform party ⟨.storeSize size, .update (.resetConsumed size), none⟩).perform
        party ⟨.mutate .resetConsumed, .loadPacked size, none⟩) target ∧
      target.msg = state.msg.publishWrite size ∧
      target.pc party = .done (.sequence state.msg.getSequenceState.nextSequence) := by
    refine Alone.advance (State.perform_pc_self _ _ _) rfl fun loading => ?_
    obtain ⟨target, run, arrived, done⟩ := alone_exchange loading
    exact ⟨target, run, arrived, done⟩
  exact ⟨target, Alone.step stored (alone_resetConsumed (State.perform_pc_self _ _ _) run), arrived, done⟩

end Holder

end RsIpc
