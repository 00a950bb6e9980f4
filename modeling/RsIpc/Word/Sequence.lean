import Mathlib.Algebra.GroupWithZero.Nat
import Mathlib.Data.Nat.Basic

/-!
# The sequence word

`sequence_and_flags` packs a 62-bit message counter and two flags into one
64-bit word.  The unpacked form is a view: every operation of the protocol is
an operation on the packed word, and this module says what each of them does
to the view.
-/

namespace RsIpc

/-- The unpacked `sequence_and_flags` word. -/
@[ext]
structure SequenceState where
  sequence : BitVec 64
  stopped : Bool
  writingInProgress : Bool
  deriving DecidableEq, Repr

namespace SequenceState

def stoppedMask : BitVec 64 := 1#64 <<< 63

def writingInProgressMask : BitVec 64 := 1#64 <<< 62

def sequenceMask : BitVec 64 := ~~~(stoppedMask ||| writingInProgressMask)

/-- `SequenceState::from`. -/
def ofPacked (packed : BitVec 64) : SequenceState where
  sequence := packed &&& sequenceMask
  stopped := packed &&& stoppedMask != 0#64
  writingInProgress := packed &&& writingInProgressMask != 0#64

def toPacked (state : SequenceState) : BitVec 64 :=
  (BitVec.setWidth 64 (BitVec.ofBool state.stopped) <<< 63) |||
    (BitVec.setWidth 64 (BitVec.ofBool state.writingInProgress) <<< 62) |||
      (state.sequence &&& sequenceMask)

/-! ## The view, bit by bit -/

@[simp]
theorem getLsbD_stoppedMask (i : Nat) : stoppedMask.getLsbD i = decide (i = 63) := by
  rw [show stoppedMask = BitVec.twoPow 64 63 from rfl, BitVec.getLsbD_twoPow]
  by_cases bit : i = 63 <;> simp [bit, eq_comm]

@[simp]
theorem getLsbD_writingInProgressMask (i : Nat) :
    writingInProgressMask.getLsbD i = decide (i = 62) := by
  rw [show writingInProgressMask = BitVec.twoPow 64 62 from rfl, BitVec.getLsbD_twoPow]
  by_cases bit : i = 62 <;> simp [bit, eq_comm]

@[simp]
theorem getLsbD_sequenceMask (i : Nat) : sequenceMask.getLsbD i = decide (i < 62) := by
  simp only [sequenceMask, BitVec.getLsbD_not, BitVec.getLsbD_or, getLsbD_stoppedMask,
    getLsbD_writingInProgressMask]
  rw [Bool.eq_iff_iff]
  simp only [Bool.and_eq_true, Bool.not_eq_true', Bool.or_eq_false_iff, decide_eq_true_eq,
    decide_eq_false_iff_not]
  omega

theorem stopped_ofPacked (packed : BitVec 64) :
    (ofPacked packed).stopped = packed.getLsbD 63 := by
  change (packed &&& BitVec.twoPow 64 63 != 0#64) = _
  rw [BitVec.and_twoPow]
  cases packed.getLsbD 63 <;> rfl

theorem writingInProgress_ofPacked (packed : BitVec 64) :
    (ofPacked packed).writingInProgress = packed.getLsbD 62 := by
  change (packed &&& BitVec.twoPow 64 62 != 0#64) = _
  rw [BitVec.and_twoPow]
  cases packed.getLsbD 62 <;> rfl

theorem getLsbD_sequence_ofPacked (packed : BitVec 64) (i : Nat) :
    (ofPacked packed).sequence.getLsbD i = (packed.getLsbD i && decide (i < 62)) := by
  simp [ofPacked]

@[simp]
theorem sequence_ofPacked_masked (packed : BitVec 64) :
    (ofPacked packed).sequence &&& sequenceMask = (ofPacked packed).sequence := by
  apply BitVec.eq_of_getLsbD_eq
  intro i _
  simp only [BitVec.getLsbD_and, getLsbD_sequence_ofPacked, getLsbD_sequenceMask]
  grind

theorem toNat_sequence_ofPacked_lt (packed : BitVec 64) :
    (ofPacked packed).sequence.toNat < 2 ^ 62 := by
  have bound : (ofPacked packed).sequence.toNat ≤ sequenceMask.toNat := by
    simp only [ofPacked, BitVec.toNat_and]
    exact Nat.and_le_right
  have mask : sequenceMask.toNat = 2 ^ 62 - 1 := by decide
  omega

theorem masked_eq_of_lt {sequence : BitVec 64} (bound : sequence.toNat < 2 ^ 62) :
    sequence &&& sequenceMask = sequence := by
  apply BitVec.eq_of_getLsbD_eq
  intro i _
  simp only [BitVec.getLsbD_and, getLsbD_sequenceMask]
  by_cases low : i < 62
  · simp [low]
  · have high : sequence.getLsbD i = false :=
      Nat.testBit_lt_two_pow (lt_of_lt_of_le bound
        (Nat.pow_le_pow_right (by decide) (Nat.le_of_not_lt low)))
    simp [high]

/-- A flag shifted to bit `position` of a word has no other bit. -/
theorem getLsbD_flag (flag : Bool) (position i : Nat) (bound : position < 64) :
    (BitVec.setWidth 64 (BitVec.ofBool flag) <<< position).getLsbD i =
      (flag && decide (i = position)) := by
  cases flag with
  | false => simp
  | true =>
      rw [show BitVec.setWidth 64 (BitVec.ofBool true) = 1#64 from rfl,
        ← BitVec.twoPow_eq, BitVec.getLsbD_twoPow]
      by_cases here : i = position
      · simp [here, bound]
      · simp [here, Ne.symm here]

theorem getLsbD_toPacked (state : SequenceState) (i : Nat) :
    state.toPacked.getLsbD i =
      ((state.stopped && decide (i = 63)) ||
        (state.writingInProgress && decide (i = 62)) ||
          (state.sequence.getLsbD i && decide (i < 62))) := by
  simp only [toPacked, BitVec.getLsbD_or, BitVec.getLsbD_and, getLsbD_sequenceMask,
    getLsbD_flag _ 63 i (by decide), getLsbD_flag _ 62 i (by decide), Bool.or_assoc]

@[simp]
theorem toPacked_ofPacked (packed : BitVec 64) : (ofPacked packed).toPacked = packed := by
  apply BitVec.eq_of_getLsbD_eq
  intro i bound
  rw [getLsbD_toPacked, getLsbD_sequence_ofPacked, stopped_ofPacked,
    writingInProgress_ofPacked]
  obtain rfl | rfl | low : i = 63 ∨ i = 62 ∨ i < 62 := by omega
  · simp
  · simp
  · simp [low, show i ≠ 63 by omega, show i ≠ 62 by omega]

/-- The view of a stored state is that state, its sequence reduced to 62 bits. -/
theorem ofPacked_toPacked (state : SequenceState) :
    ofPacked state.toPacked = { state with sequence := state.sequence &&& sequenceMask } := by
  have sequence : (ofPacked state.toPacked).sequence = state.sequence &&& sequenceMask := by
    apply BitVec.eq_of_getLsbD_eq
    intro i _
    rw [getLsbD_sequence_ofPacked, getLsbD_toPacked, BitVec.getLsbD_and, getLsbD_sequenceMask]
    by_cases low : i < 62
    · simp [low, show i ≠ 63 by omega, show i ≠ 62 by omega]
    · simp [low]
  have stopped : (ofPacked state.toPacked).stopped = state.stopped := by
    rw [stopped_ofPacked, getLsbD_toPacked]
    simp
  have writing : (ofPacked state.toPacked).writingInProgress = state.writingInProgress := by
    rw [writingInProgress_ofPacked, getLsbD_toPacked]
    simp
  exact SequenceState.ext sequence stopped writing

/-! ## The atomic operations on the word -/

/-- Two words with the same view are the same word. -/
theorem ofPacked_injective : Function.Injective ofPacked := fun left right equal => by
  rw [← toPacked_ofPacked left, equal, toPacked_ofPacked]

theorem eq_of_bits {left : SequenceState} {packed : BitVec 64}
    (sequence : ∀ i < 62, packed.getLsbD i = left.sequence.getLsbD i)
    (masked : left.sequence &&& sequenceMask = left.sequence)
    (writing : packed.getLsbD 62 = left.writingInProgress)
    (stopped : packed.getLsbD 63 = left.stopped) : ofPacked packed = left := by
  have sequenceEq : (ofPacked packed).sequence = left.sequence := by
    rw [← masked]
    apply BitVec.eq_of_getLsbD_eq
    intro i _
    rw [getLsbD_sequence_ofPacked, BitVec.getLsbD_and, getLsbD_sequenceMask]
    by_cases low : i < 62
    · simp [low, sequence i low]
    · simp [low]
  rw [← stopped_ofPacked] at stopped
  rw [← writingInProgress_ofPacked] at writing
  exact SequenceState.ext sequenceEq stopped writing

theorem ofPacked_or_writingInProgressMask (packed : BitVec 64) :
    ofPacked (packed ||| writingInProgressMask) =
      { ofPacked packed with writingInProgress := true } := by
  apply eq_of_bits
  · intro i low
    simp only [BitVec.getLsbD_or, getLsbD_writingInProgressMask, getLsbD_sequence_ofPacked]
    simp [low, show i ≠ 62 by omega]
  · exact sequence_ofPacked_masked packed
  · rw [BitVec.getLsbD_or, getLsbD_writingInProgressMask]
    simp
  · rw [BitVec.getLsbD_or, getLsbD_writingInProgressMask, stopped_ofPacked]
    simp

theorem ofPacked_and_not_writingInProgressMask (packed : BitVec 64) :
    ofPacked (packed &&& ~~~writingInProgressMask) =
      { ofPacked packed with writingInProgress := false } := by
  apply eq_of_bits
  · intro i low
    simp only [BitVec.getLsbD_and, BitVec.getLsbD_not, getLsbD_writingInProgressMask,
      getLsbD_sequence_ofPacked]
    simp [low, show i < 64 by omega, show i ≠ 62 by omega]
  · exact sequence_ofPacked_masked packed
  · rw [BitVec.getLsbD_and, BitVec.getLsbD_not, getLsbD_writingInProgressMask]
    simp
  · rw [BitVec.getLsbD_and, BitVec.getLsbD_not, getLsbD_writingInProgressMask, stopped_ofPacked]
    simp

theorem ofPacked_or_stoppedMask (packed : BitVec 64) :
    ofPacked (packed ||| stoppedMask) = { ofPacked packed with stopped := true } := by
  apply eq_of_bits
  · intro i low
    simp only [BitVec.getLsbD_or, getLsbD_stoppedMask, getLsbD_sequence_ofPacked]
    simp [low, show i ≠ 63 by omega]
  · exact sequence_ofPacked_masked packed
  · rw [BitVec.getLsbD_or, getLsbD_stoppedMask, writingInProgress_ofPacked]
    simp
  · rw [BitVec.getLsbD_or, getLsbD_stoppedMask]
    simp

/-! ## The next sequence number -/

/-- Sequence numbers run through `1, ..., 2 ^ 62 - 1` and start again at `1`. -/
abbrev period : Nat := 2 ^ 62 - 1

/-- The number `publish_write` computes from the word it read; zero is skipped. -/
def nextSequence (old : SequenceState) : BitVec 64 :=
  let newSeq := (old.sequence + 1) &&& sequenceMask
  if newSeq = 0 then 1 else newSeq

/-- The word `publish_write` tries to store. -/
def published (old : SequenceState) : SequenceState where
  sequence := old.nextSequence
  stopped := old.stopped
  writingInProgress := false

theorem toNat_nextSequence {old : SequenceState} (bound : old.sequence.toNat < 2 ^ 62) :
    old.nextSequence.toNat = old.sequence.toNat % period + 1 := by
  have succ : (old.sequence + 1).toNat = old.sequence.toNat + 1 := by
    rw [BitVec.toNat_add, show (1 : BitVec 64).toNat = 1 from rfl]
    omega
  simp only [nextSequence, period]
  by_cases last : old.sequence.toNat = 2 ^ 62 - 1
  · have zero : (old.sequence + 1) &&& sequenceMask = 0 := by
      have value : old.sequence + 1 = BitVec.ofNat 64 (2 ^ 62) := by
        apply BitVec.eq_of_toNat_eq
        rw [succ, last]
        rfl
      rw [value]
      decide
    rw [if_pos zero, last]
    rfl
  · have keep : (old.sequence + 1) &&& sequenceMask = old.sequence + 1 :=
      masked_eq_of_lt (by omega)
    have nonzero : old.sequence + 1 ≠ 0 := by
      intro zero
      have := congrArg BitVec.toNat zero
      rw [succ] at this
      exact Nat.succ_ne_zero _ this
    rw [keep, if_neg nonzero, succ]
    omega

theorem nextSequence_lt (old : SequenceState) : old.nextSequence.toNat < 2 ^ 62 := by
  simp only [nextSequence]
  split
  · decide
  · have mask : sequenceMask.toNat = 2 ^ 62 - 1 := by decide
    have bound : ((old.sequence + 1) &&& sequenceMask).toNat ≤ sequenceMask.toNat := by
      rw [BitVec.toNat_and]
      exact Nat.and_le_right
    omega

/-- The exchange of `publish_write` stores exactly the state it computed. -/
@[simp]
theorem ofPacked_published (old : SequenceState) :
    ofPacked old.published.toPacked = old.published := by
  rw [ofPacked_toPacked]
  simp only [published, masked_eq_of_lt (nextSequence_lt old)]

end SequenceState

end RsIpc
