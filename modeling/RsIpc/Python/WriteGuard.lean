import RsIpc.SharedMessage.System

/-!
# The write guard of Python

`PythonWriteGuard` is a file-like object over the buffer: a cursor, `write`, which
checks the end of the input against the capacity, and `seek`, which accepts any
position.  The check adds the cursor and the length in machine arithmetic.
-/

namespace RsIpc

open Transition

universe u

/-- A C-contiguous object with the buffer protocol, whose length is a `Py_ssize_t`. -/
structure PyBuffer where
  bytes : List UInt8
  length_lt : bytes.length < 2 ^ 63

/-- `len_bytes`. -/
def PyBuffer.lenBytes (data : PyBuffer) : BitVec 64 :=
  BitVec.ofNat 64 data.bytes.length

@[simp]
theorem PyBuffer.toNat_lenBytes (data : PyBuffer) : data.lenBytes.toNat = data.bytes.length := by
  have bound := data.length_lt
  rw [lenBytes, BitVec.toNat_ofNat, Nat.mod_eq_of_lt (by omega)]

/-- The `ValueError`s of the guards. -/
inductive GuardError
  | released
  | published
  | tooLarge (cursor writeLen : BitVec 64) (capacity : Nat)
  deriving DecidableEq, Repr

def GuardError.message : GuardError → String
  | .released => "Guard has been released"
  | .published => "Guard has already been published or released"
  | .tooLarge cursor writeLen capacity =>
      s!"Data too large: cursor at {cursor.toNat}, writing {writeLen.toNat} bytes, capacity {capacity}"

/-- How a method of a guard ends: with a value, with a `ValueError`, or with a panic. -/
inductive PyResult (α : Type u)
  | ok (value : α)
  | error (error : GuardError)
  | panicked
  deriving DecidableEq, Repr

/-- The bytes are stored one after another from the index on. -/
def SharedMessage.copyIn (msg : SharedMessage) : Nat → List UInt8 → SharedMessage
  | _, [] => msg
  | index, byte :: bytes => ((Effect.storeByte index byte).apply msg).copyIn (index + 1) bytes

/-- `PythonWriteGuard`; `held` says that `inner` has not been taken. -/
structure PythonWriteGuard where
  held : Bool
  cursor : BitVec 64
  deriving DecidableEq, Repr

namespace PythonWriteGuard

/-- `PythonWriteGuard::new`. -/
def new : PythonWriteGuard where
  held := true
  cursor := 0

/-- `write`; the sum is that of the release profile. -/
def write (msg : SharedMessage) (guard : PythonWriteGuard) (data : PyBuffer) :
    PyResult (BitVec 64) × SharedMessage × PythonWriteGuard :=
  if guard.held = false then (.error .released, msg, guard)
  else
    let stop := guard.cursor + data.lenBytes
    if msg.capacity < stop.toNat then
      (.error (.tooLarge guard.cursor data.lenBytes msg.capacity), msg, guard)
    -- slicing `cursor..stop` panics where the range is decreasing
    else if stop < guard.cursor then (.panicked, msg, guard)
    else (.ok data.lenBytes, msg.copyIn guard.cursor.toNat data.bytes, { guard with cursor := stop })

/-- `seek`. -/
def seek (guard : PythonWriteGuard) (pos : BitVec 64) : PythonWriteGuard :=
  { guard with cursor := pos }

end PythonWriteGuard

/-! ## Stores -/

namespace SharedMessage

variable (msg : SharedMessage)

@[simp]
theorem capacity_copyIn (index : Nat) (bytes : List UInt8) :
    (msg.copyIn index bytes).capacity = msg.capacity := by
  induction bytes generalizing msg index with
  | nil => rfl
  | cons byte bytes ih => exact (ih _ _).trans (Effect.capacity_apply _ _)

/-- Only the buffer changes. -/
theorem copyIn_eq (index : Nat) (bytes : List UInt8) :
    msg.copyIn index bytes = { msg with data := (msg.copyIn index bytes).data } := by
  induction bytes generalizing msg index with
  | nil => rfl
  | cons byte bytes ih => exact ih _ _

/-- The bytes stand where they were stored, and every other byte is what it was. -/
theorem getElem?_copyIn (start : Nat) (bytes : List UInt8)
    (fits : start + bytes.length ≤ msg.capacity) (index : Nat) :
    (msg.copyIn start bytes).data[index]? =
      if start ≤ index ∧ index < start + bytes.length then bytes[index - start]?
      else msg.data[index]? := by
  induction bytes generalizing msg start with
  | nil =>
      have outside : ¬ (start ≤ index ∧ index < start + ([] : List UInt8).length) := by
        rw [List.length_nil]
        omega
      exact (if_neg outside).symm
  | cons byte bytes ih =>
      rw [List.length_cons] at fits
      rw [copyIn, ih _ _ (by rw [Effect.capacity_apply]; omega), Effect.data_apply]
      simp only [List.getElem?_set, List.length_cons]
      by_cases first : start = index
      · subst first
        have inside : start < msg.data.length := by
          unfold capacity at fits
          omega
        have before : ¬ (start + 1 ≤ start ∧ start < start + 1 + bytes.length) := by omega
        simp [inside, before]
      · by_cases later : start + 1 ≤ index ∧ index < start + 1 + bytes.length
        · have here : start ≤ index ∧ index < start + (bytes.length + 1) := by omega
          have shift : index - start = index - (start + 1) + 1 := by omega
          rw [if_pos later, if_pos here, shift, List.getElem?_cons_succ]
        · have outside : ¬ (start ≤ index ∧ index < start + (bytes.length + 1)) := by omega
          rw [if_neg later, if_neg first, if_neg outside]

/-- The buffer up to the end of what was stored. -/
theorem take_copyIn (start : Nat) (bytes : List UInt8) (fits : start + bytes.length ≤ msg.capacity) :
    (msg.copyIn start bytes).data.take (start + bytes.length) = msg.data.take start ++ bytes := by
  have enough : start ≤ msg.data.length := Nat.le_trans (Nat.le_add_right _ _) fits
  apply List.ext_getElem?
  intro index
  rw [List.getElem?_take, msg.getElem?_copyIn start bytes fits, List.getElem?_append,
    List.length_take_of_le enough, List.getElem?_take]
  by_cases first : index < start
  · simp [first, Nat.not_le_of_lt first, Nat.lt_add_right bytes.length first]
  · by_cases inside : index < start + bytes.length
    · simp [first, inside, Nat.le_of_not_lt first]
    · have beyond : bytes.length ≤ index - start := by omega
      simp [first, inside, List.getElem?_eq_none beyond]

end SharedMessage

/-! ## Histories of calls -/

namespace PythonWriteGuard

/-- The calls on a guard that move its cursor. -/
inductive Call
  | write (data : PyBuffer)
  | seek (pos : BitVec 64)

/-- A guard over a buffer, and the calls on it. -/
def calls : System (SharedMessage × PythonWriteGuard) Call where
  initial state := state.2 = new
  step state call :=
    match call with
    | .write data => some (write state.1 state.2 data).2
    | .seek pos => some (state.1, state.2.seek pos)

/-- `write` either stores the input from the cursor on, changes no other byte,
moves the cursor behind it and returns its length, where it fits; or it is
refused and changes nothing.  Its sum is the mathematical one. -/
structure CleanWrite (msg : SharedMessage) (guard : PythonWriteGuard) (data : PyBuffer) : Prop where
  stores : guard.cursor.toNat + data.bytes.length ≤ msg.capacity →
    (write msg guard data).1 = .ok data.lenBytes ∧
      (∀ index : Nat, (write msg guard data).2.1.data[index]? =
        if guard.cursor.toNat ≤ index ∧ index < guard.cursor.toNat + data.bytes.length then
          data.bytes[index - guard.cursor.toNat]?
        else msg.data[index]?) ∧
      (write msg guard data).2.1 = { msg with data := (write msg guard data).2.1.data } ∧
      (write msg guard data).2.2.cursor.toNat = guard.cursor.toNat + data.bytes.length
  refuses : ¬ guard.cursor.toNat + data.bytes.length ≤ msg.capacity →
    (∃ error, (write msg guard data).1 = .error error) ∧ (write msg guard data).2 = (msg, guard)
  exact_sum : (guard.cursor + data.lenBytes).toNat = guard.cursor.toNat + data.bytes.length

theorem toNat_stop {guard : PythonWriteGuard} {data : PyBuffer}
    (small : guard.cursor.toNat + data.bytes.length < 2 ^ 64) :
    (guard.cursor + data.lenBytes).toNat = guard.cursor.toNat + data.bytes.length := by
  rw [BitVec.toNat_add, PyBuffer.toNat_lenBytes, Nat.mod_eq_of_lt small]

/-- A write that fits. -/
theorem write_of_le {msg : SharedMessage} {guard : PythonWriteGuard} {data : PyBuffer}
    (held : guard.held = true) (small : guard.cursor.toNat + data.bytes.length < 2 ^ 64)
    (fits : guard.cursor.toNat + data.bytes.length ≤ msg.capacity) :
    write msg guard data = (.ok data.lenBytes, msg.copyIn guard.cursor.toNat data.bytes,
      { guard with cursor := guard.cursor + data.lenBytes }) := by
  have stop := toNat_stop small
  have ordered : ¬ guard.cursor + data.lenBytes < guard.cursor := by
    rw [BitVec.lt_def, stop]
    omega
  have inside : ¬ msg.capacity < (guard.cursor + data.lenBytes).toNat := by
    rw [stop]
    omega
  simp only [write, held, Bool.true_eq_false, if_false, inside, ordered]

/-- A write that does not fit. -/
theorem write_of_lt {msg : SharedMessage} {guard : PythonWriteGuard} {data : PyBuffer}
    (held : guard.held = true) (small : guard.cursor.toNat + data.bytes.length < 2 ^ 64)
    (large : msg.capacity < guard.cursor.toNat + data.bytes.length) :
    write msg guard data =
      (.error (.tooLarge guard.cursor data.lenBytes msg.capacity), msg, guard) := by
  have outside : msg.capacity < (guard.cursor + data.lenBytes).toNat := by
    rw [toNat_stop small]
    exact large
  simp only [write, held, Bool.true_eq_false, if_false, outside, if_true]

/-- A write on an unreleased guard is clean exactly if its sum does not overflow. -/
theorem cleanWrite_iff {msg : SharedMessage} {guard : PythonWriteGuard} {data : PyBuffer}
    (held : guard.held = true) :
    CleanWrite msg guard data ↔ guard.cursor.toNat + data.bytes.length < 2 ^ 64 := by
  constructor
  · intro clean
    rw [← clean.exact_sum]
    exact (guard.cursor + data.lenBytes).isLt
  · intro small
    constructor
    · intro fits
      rw [write_of_le held small fits]
      exact ⟨rfl, msg.getElem?_copyIn _ _ fits, msg.copyIn_eq _ _, toNat_stop small⟩
    · intro large
      rw [write_of_lt held small (Nat.lt_of_not_le large)]
      exact ⟨⟨_, rfl⟩, rfl⟩
    · exact toNat_stop small

theorem held_of_step {source target : SharedMessage × PythonWriteGuard} {call : Call}
    (step : calls.step source call = some target) (held : source.2.held = true) :
    target.2.held = true := by
  cases call with
  | write data =>
      cases step
      simp only [write, held, Bool.true_eq_false, if_false]
      split
      · exact held
      · split
        · exact held
        · rfl
  | seek pos =>
      cases step
      exact held

/-- The call behaves: a write is clean, and `seek` goes where it is told. -/
def Behaves : StepCondition (SharedMessage × PythonWriteGuard) Call :=
  fun source call target =>
    match call with
    | .write data => CleanWrite source.1 source.2 data
    | .seek pos => target.2.cursor = pos ∧ target.1 = source.1

/-- The sum of the cursor and the length fits into 64 bits. -/
def NoWrap : StepCondition (SharedMessage × PythonWriteGuard) Call :=
  fun source call _ =>
    match call with
    | .write data => source.2.cursor.toNat + data.bytes.length < 2 ^ 64
    | .seek _ => True

/-- In every history of calls on a fresh guard, over any buffer, all calls behave
exactly if no write adds up to `2 ^ 64`. -/
theorem behaves_iff_noWrap (msg : SharedMessage) (history : List Call) :
    calls.StepsMeet Behaves (msg, new) history ↔ calls.StepsMeet NoWrap (msg, new) history := by
  refine System.stepsMeet_iff (fun state => state.2.held = true) held_of_step ?_ rfl history
  intro source call target held step
  cases call with
  | write data => exact cleanWrite_iff held
  | seek pos =>
      cases step
      exact iff_of_true ⟨rfl, rfl⟩ trivial

/-- `seek` to the last position, then `write` of two bytes. -/
def wrapping : List Call :=
  [.seek (BitVec.allOnes 64), .write ⟨[1, 2], by decide⟩]

/-- The check passes with the sum `1`, and the slice panics. -/
theorem wrapping_panics :
    (write (SharedMessage.fresh 4 0 0) (new.seek (BitVec.allOnes 64)) ⟨[1, 2], by decide⟩).1 =
        .panicked ∧
      ¬ calls.StepsMeet Behaves (SharedMessage.fresh 4 0 0, new) wrapping := by
  have panics : (write (SharedMessage.fresh 4 0 0) (new.seek (BitVec.allOnes 64))
      ⟨[1, 2], by decide⟩).1 = .panicked := by
    decide
  refine ⟨panics, ?_⟩
  intro meet
  obtain ⟨clean, _⟩ := (meet _ rfl).2 _ rfl
  obtain ⟨⟨error, refused⟩, _⟩ := CleanWrite.refuses clean (by decide)
  exact absurd (panics.symm.trans refused) nofun

end PythonWriteGuard

end RsIpc
