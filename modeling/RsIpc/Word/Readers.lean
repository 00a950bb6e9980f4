import Mathlib.Algebra.GroupWithZero.Nat
import Mathlib.Data.Nat.Basic

/-!
# The readers word

`readers_state` packs four 16-bit counters.  Increments and decrements are
those of the release profile, so a field wraps at `2 ^ 16`.
-/

namespace RsIpc

/-- The unpacked `readers_state` word. -/
@[ext]
structure ReadersStateCount where
  targetRead : BitVec 16
  consumers : BitVec 16
  activeReaders : BitVec 16
  dataConsumed : BitVec 16
  deriving DecidableEq, Repr

namespace ReadersStateCount

def targetShift : Nat := 16 * 0

def consumersShift : Nat := 16 * 1

def activeShift : Nat := 16 * 2

def consumedShift : Nat := 16 * 3

/-- `ReadersStateCount::from`. -/
def ofPacked (packed : BitVec 64) : ReadersStateCount where
  targetRead := (packed >>> targetShift).setWidth 16
  consumers := (packed >>> consumersShift).setWidth 16
  activeReaders := (packed >>> activeShift).setWidth 16
  dataConsumed := (packed >>> consumedShift).setWidth 16

def toPacked (state : ReadersStateCount) : BitVec 64 :=
  (state.targetRead.setWidth 64 <<< targetShift) |||
    (state.consumers.setWidth 64 <<< consumersShift) |||
      (state.activeReaders.setWidth 64 <<< activeShift) |||
        (state.dataConsumed.setWidth 64 <<< consumedShift)

/-- How many readers a writer waits for. -/
def getTargetConsumed (state : ReadersStateCount) : BitVec 16 :=
  if state.targetRead ≤ state.consumers then state.targetRead else state.consumers

/-- `getTargetConsumed` is the minimum of the two counters. -/
theorem toNat_getTargetConsumed (state : ReadersStateCount) :
    state.getTargetConsumed.toNat = min state.targetRead.toNat state.consumers.toNat := by
  unfold getTargetConsumed
  split
  · rename_i le
    exact (Nat.min_eq_left le).symm
  · rename_i not_le
    exact (Nat.min_eq_right (Nat.le_of_not_le not_le)).symm

/-! ## Packing and unpacking are inverse -/

theorem getLsbD_field (field : BitVec 16) (shift i : Nat) (bound : i < 64) :
    (field.setWidth 64 <<< shift).getLsbD i = (decide (shift ≤ i) && field.getLsbD (i - shift)) := by
  rw [BitVec.getLsbD_shiftLeft, BitVec.getLsbD_setWidth]
  by_cases low : i < shift
  · simp [low, Nat.not_le_of_lt low]
  · simp [low, bound, show i - shift < 64 by omega, Nat.le_of_not_lt low]

theorem getLsbD_toPacked (state : ReadersStateCount) (i : Nat) (bound : i < 64) :
    state.toPacked.getLsbD i =
      (state.targetRead.getLsbD i ||
        (decide (16 ≤ i) && state.consumers.getLsbD (i - 16)) ||
          (decide (32 ≤ i) && state.activeReaders.getLsbD (i - 32)) ||
            (decide (48 ≤ i) && state.dataConsumed.getLsbD (i - 48))) := by
  simp only [toPacked, BitVec.getLsbD_or, getLsbD_field _ _ i bound, targetShift,
    consumersShift, activeShift, consumedShift]
  simp

theorem getLsbD_unpacked (packed : BitVec 64) (shift i : Nat) (bound : i < 16) :
    ((packed >>> shift).setWidth 16).getLsbD i = packed.getLsbD (shift + i) := by
  rw [BitVec.getLsbD_setWidth, BitVec.getLsbD_ushiftRight]
  simp [bound]

/-- Bits `16`, `32` and `48` upwards lie outside a field that starts lower. -/
theorem getLsbD_beyond (field : BitVec 16) {i : Nat} (bound : 16 ≤ i) :
    field.getLsbD i = false :=
  BitVec.getLsbD_of_ge field i bound

theorem targetRead_toPacked (state : ReadersStateCount) :
    (ofPacked state.toPacked).targetRead = state.targetRead := by
  apply BitVec.eq_of_getLsbD_eq
  intro i bound
  simp only [ofPacked, targetShift]
  rw [getLsbD_unpacked _ _ i bound, getLsbD_toPacked _ _ (by omega)]
  simp [show ¬ 16 ≤ i by omega, show ¬ 32 ≤ i by omega, show ¬ 48 ≤ i by omega]

theorem consumers_toPacked (state : ReadersStateCount) :
    (ofPacked state.toPacked).consumers = state.consumers := by
  apply BitVec.eq_of_getLsbD_eq
  intro i bound
  simp only [ofPacked, consumersShift]
  rw [getLsbD_unpacked _ _ i bound, getLsbD_toPacked _ _ (by omega),
    getLsbD_beyond state.targetRead (by omega)]
  simp [show ¬ 32 ≤ 16 + i by omega, show ¬ 48 ≤ 16 + i by omega]

theorem activeReaders_toPacked (state : ReadersStateCount) :
    (ofPacked state.toPacked).activeReaders = state.activeReaders := by
  apply BitVec.eq_of_getLsbD_eq
  intro i bound
  simp only [ofPacked, activeShift]
  rw [getLsbD_unpacked _ _ i bound, getLsbD_toPacked _ _ (by omega),
    getLsbD_beyond state.targetRead (by omega), getLsbD_beyond state.consumers (by omega)]
  simp [show ¬ 48 ≤ 32 + i by omega]

theorem dataConsumed_toPacked (state : ReadersStateCount) :
    (ofPacked state.toPacked).dataConsumed = state.dataConsumed := by
  apply BitVec.eq_of_getLsbD_eq
  intro i bound
  simp only [ofPacked, consumedShift]
  rw [getLsbD_unpacked _ _ i bound, getLsbD_toPacked _ _ (by omega),
    getLsbD_beyond state.targetRead (by omega), getLsbD_beyond state.consumers (by omega),
    getLsbD_beyond state.activeReaders (by omega)]
  simp

@[simp]
theorem ofPacked_toPacked (state : ReadersStateCount) : ofPacked state.toPacked = state :=
  ReadersStateCount.ext (targetRead_toPacked state) (consumers_toPacked state)
    (activeReaders_toPacked state) (dataConsumed_toPacked state)

@[simp]
theorem toPacked_ofPacked (packed : BitVec 64) : (ofPacked packed).toPacked = packed := by
  apply BitVec.eq_of_getLsbD_eq
  intro i bound
  rw [getLsbD_toPacked _ i bound]
  simp only [ofPacked, targetShift, consumersShift, activeShift, consumedShift,
    BitVec.getLsbD_setWidth, BitVec.getLsbD_ushiftRight]
  obtain field | field | field | field :
      i < 16 ∨ (16 ≤ i ∧ i < 32) ∨ (32 ≤ i ∧ i < 48) ∨ 48 ≤ i := by omega
  · simp [field, show ¬ 16 ≤ i by omega, show ¬ 32 ≤ i by omega, show ¬ 48 ≤ i by omega]
  · simp [field, show ¬ i < 16 by omega, show i - 16 < 16 by omega, show ¬ 32 ≤ i by omega,
      show ¬ 48 ≤ i by omega, show 16 + (i - 16) = i by omega]
  · simp [field, show ¬ i < 16 by omega, show ¬ i - 16 < 16 by omega,
      show i - 32 < 16 by omega, show ¬ 48 ≤ i by omega, show 32 + (i - 32) = i by omega]
  · simp [field, show ¬ i < 16 by omega, show ¬ i - 16 < 16 by omega,
      show ¬ i - 32 < 16 by omega, show i - 48 < 16 by omega, show 48 + (i - 48) = i by omega]

end ReadersStateCount

end RsIpc
