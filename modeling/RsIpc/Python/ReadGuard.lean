import RsIpc.Python.WriteGuard

/-!
# The read guard of Python

`PythonReadGuard` is a file-like object over the published bytes: a cursor,
`read`, which clamps a signed size to what is left, and `seek`, which accepts any
position.
-/

namespace RsIpc

open Transition

/-- `PythonReadGuard`; `held` says that `inner` has not been taken. -/
structure PythonReadGuard where
  held : Bool
  cursor : BitVec 64
  deriving DecidableEq, Repr

namespace PythonReadGuard

/-- `PythonReadGuard::new`. -/
def new : PythonReadGuard where
  held := true
  cursor := 0

/-- The number of bytes that `read` takes; a size is an `isize`. -/
def toRead (size : Option (BitVec 64)) (available : Nat) : Nat :=
  match size with
  | some n => if 0 ≤ n.toInt then min n.toNat available else available
  | none => available

/-- `read`. -/
def read (msg : SharedMessage) (guard : PythonReadGuard) (size : Option (BitVec 64)) :
    PyResult (List UInt8) × PythonReadGuard :=
  if guard.held = false then (.error .released, guard)
  else
    match msg.dataRef with
    | none => (.panicked, guard)
    | some data =>
        let currentPos := guard.cursor.toNat
        if data.length ≤ currentPos then (.ok [], guard)
        else
          let count := toRead size (data.length - currentPos)
          (.ok ((data.drop currentPos).take count),
            { guard with cursor := guard.cursor + BitVec.ofNat 64 count })

/-- `seek`. -/
def seek (guard : PythonReadGuard) (pos : BitVec 64) : PythonReadGuard :=
  { guard with cursor := pos }

/-- The calls on a guard that move its cursor. -/
inductive Call
  | read (size : Option (BitVec 64))
  | seek (pos : BitVec 64)
  deriving DecidableEq, Repr

/-- A guard over a published message, and the calls on it. -/
def calls (msg : SharedMessage) : System PythonReadGuard Call where
  initial guard := guard = new
  step guard call :=
    match call with
    | .read size => some (guard.read msg size).2
    | .seek pos => some (guard.seek pos)

/-- Where a read at the cursor ends in a message of the given length. -/
def stopAt (size : Option (BitVec 64)) (cursor length : Nat) : Nat :=
  match size with
  | some n => if 0 ≤ n.toInt then min (cursor + n.toNat) length else length
  | none => length

/-- The call returns the bytes of the message from the cursor to where it ends, and
moves the cursor by what it returned; `seek` goes where it is told. -/
def ReadsRight (msg : SharedMessage) (message : List UInt8) : StepCondition PythonReadGuard Call :=
  fun source call target =>
    match call with
    | .read size => ∃ bytes, (source.read msg size).1 = .ok bytes ∧
        bytes = (message.take (stopAt size source.cursor.toNat message.length)).drop
          (min source.cursor.toNat message.length) ∧
        target.cursor.toNat = source.cursor.toNat + bytes.length
    | .seek pos => target.cursor = pos

/-- The reads of the sizes one after another. -/
def readAll (msg : SharedMessage) (guard : PythonReadGuard) :
    List (Option (BitVec 64)) → List (PyResult (List UInt8)) × PythonReadGuard
  | [] => ([], guard)
  | size :: sizes =>
      let (result, next) := guard.read msg size
      let (results, last) := readAll msg next sizes
      (result :: results, last)

section Reads

variable {msg : SharedMessage} {message : List UInt8} {guard : PythonReadGuard}

theorem toRead_le (size : Option (BitVec 64)) (available : Nat) : toRead size available ≤ available := by
  unfold toRead
  split
  · split
    · exact Nat.min_le_right _ _
    · exact Nat.le_refl _
  · exact Nat.le_refl _

theorem stopAt_eq (size : Option (BitVec 64)) {cursor length : Nat} (inside : cursor ≤ length) :
    stopAt size cursor length = cursor + toRead size (length - cursor) := by
  unfold stopAt toRead
  split
  · split
    · omega
    · omega
  · omega

/-- What a read of a held guard returns, and where it leaves the cursor. -/
theorem read_eq (held : guard.held = true) (shows : msg.dataRef = some message)
    (small : message.length < 2 ^ 64) (size : Option (BitVec 64)) :
    ∃ bytes, (guard.read msg size).1 = .ok bytes ∧
      bytes = (message.take (stopAt size guard.cursor.toNat message.length)).drop
        (min guard.cursor.toNat message.length) ∧
      (guard.read msg size).2.cursor.toNat = guard.cursor.toNat + bytes.length ∧
      (guard.read msg size).2.held = true := by
  simp only [read, held, Bool.true_eq_false, if_false, shows]
  split
  · rename_i past
    refine ⟨[], rfl, ?_, rfl, held⟩
    rw [Nat.min_eq_right past, List.drop_eq_nil_of_le (List.length_take_le' _ _)]
  · rename_i inside
    have le := Nat.le_of_lt (Nat.lt_of_not_le inside)
    have clamped := toRead_le size (message.length - guard.cursor.toNat)
    have length : ((message.drop guard.cursor.toNat).take
        (toRead size (message.length - guard.cursor.toNat))).length =
          toRead size (message.length - guard.cursor.toNat) := by
      rw [List.length_take_of_le]
      rwa [List.length_drop]
    refine ⟨_, rfl, ?_, ?_, rfl⟩
    · rw [stopAt_eq size le, Nat.min_eq_left le, List.drop_take, Nat.add_sub_cancel_left]
    · rw [length, BitVec.toNat_add, BitVec.toNat_ofNat]
      omega

/-- In every history of calls on a fresh guard all calls read right. -/
theorem readsRight (shows : msg.dataRef = some message) (small : message.length < 2 ^ 64)
    (history : List Call) : (calls msg).StepsMeet (ReadsRight msg message) new history := by
  refine System.stepsMeet_of_inv (fun guard => guard.held = true) ?_ rfl history
  intro guard call target held step
  cases call with
  | read size =>
      cases step
      obtain ⟨bytes, ok, exact_, moved, still⟩ := read_eq held shows small size
      exact ⟨⟨bytes, ok, exact_, moved⟩, still⟩
  | seek pos =>
      cases step
      exact ⟨rfl, held⟩

/-- Reads without `seek` return the message from the cursor on, piece by piece. -/
theorem readAll_eq (held : guard.held = true) (shows : msg.dataRef = some message)
    (small : message.length < 2 ^ 64) (inside : guard.cursor.toNat ≤ message.length)
    (sizes : List (Option (BitVec 64))) :
    ∃ parts : List (List UInt8), (guard.readAll msg sizes).1 = parts.map .ok ∧
      (guard.readAll msg sizes).2.cursor.toNat = guard.cursor.toNat + parts.flatten.length ∧
      parts.flatten = (message.drop guard.cursor.toNat).take parts.flatten.length := by
  induction sizes generalizing guard with
  | nil => exact ⟨[], rfl, rfl, rfl⟩
  | cons size sizes ih =>
      obtain ⟨bytes, ok, exact_, moved, still⟩ := read_eq held shows small size
      rw [Nat.min_eq_left inside, stopAt_eq size inside, List.drop_take,
        Nat.add_sub_cancel_left] at exact_
      have piece : bytes = (message.drop guard.cursor.toNat).take bytes.length := by
        rw [exact_, List.length_take, ← List.take_take, List.take_length]
      have short : bytes.length ≤ message.length - guard.cursor.toNat := by
        rw [exact_, ← List.length_drop]
        exact List.length_take_le' _ _
      obtain ⟨parts, results, last, rest⟩ := ih still (by omega)
      refine ⟨bytes :: parts, ?_, ?_, ?_⟩
      · change (guard.read msg size).1 :: ((guard.read msg size).2.readAll msg sizes).1 = _
        rw [ok, results]
        rfl
      · change ((guard.read msg size).2.readAll msg sizes).2.cursor.toNat = _
        rw [last, moved, List.flatten_cons, List.length_append, Nat.add_assoc]
      · rw [List.flatten_cons, List.length_append, List.take_add, List.drop_drop, ← moved, ← piece,
          ← rest]

end Reads

end PythonReadGuard

end RsIpc
