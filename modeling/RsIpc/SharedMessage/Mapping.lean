import RsIpc.Layout.Core

/-!
# The mapped object

`cast_from_void_ptr` makes a slice-tailed reference from a mapping.  The payload
starts behind the last header field, which is four bytes short of the size of a
struct without payload, and the size of the whole value is rounded up again.
-/

namespace RsIpc

open Layout

namespace SharedMessage

/-- The fields in front of the payload.  `SharedMutex<()>` is its 32-bit futex. -/
def headerFields : List TypeLayout :=
  [ ⟨8, 8⟩  -- sequence_and_flags
  , ⟨8, 8⟩  -- data_size
  , ⟨112, 1⟩  -- _pad1
  , ⟨8, 8⟩  -- readers_state
  , ⟨4, 4⟩  -- writer_mutex
  , ⟨4, 4⟩  -- writer_condvar
  , ⟨4, 4⟩  -- reader_done_condvar
  , ⟨104, 1⟩  -- _pad2
  ]

/-- All fields, over a payload of `length` bytes. -/
def fields (length : Nat) : List TypeLayout :=
  headerFields ++ [⟨length, 1⟩]

/-- `size_of::<SharedMessage<[u8; length]>>()`, which is also the size of a
slice-tailed value. -/
def sizeOf (length : Nat) : Nat :=
  structSize (fields length)

/-- `size_of_fields`. -/
def sizeOfFields : Nat :=
  sizeOf 0

/-- `align_of_fields`. -/
def alignOfFields : Nat :=
  structAlign (fields 0)

/-- The compile-time assertions of `size_of_fields`. -/
example : sizeOfFields % 64 = 0 ∧ sizeOf 8 % 64 = 8 := by
  decide

/-- A reference to a slice-tailed value. -/
structure Reference where
  address : Nat
  length : Nat
  deriving DecidableEq, Repr

/-- `cast_from_void_ptr`. -/
def castFromVoidPtr (address memorySize : Nat) : Option Reference :=
  if address % alignOfFields ≠ 0 then none
  else
    let payloadSize := memorySize - sizeOfFields
    if payloadSize = 0 then none else some ⟨address, payloadSize⟩

/-- The offset of the payload. -/
def payloadOffset : Nat :=
  endOf 0 headerFields

/-- The value that a reference points to is laid out inside a mapping. -/
structure Reference.FitsIn (reference : Reference) (memorySize : Nat) : Prop where
  apart : (spans 0 (fields reference.length)).Pairwise fun first second => first.2 ≤ second.1
  payload : payloadOffset + reference.length - 1 < memorySize
  value : sizeOf reference.length ≤ memorySize

@[simp]
theorem payloadOffset_eq : payloadOffset = 252 := by
  decide

@[simp]
theorem sizeOfFields_eq : sizeOfFields = 256 := by
  decide

theorem align_pos_of_mem_fields (length : Nat) : ∀ field ∈ fields length, 0 < field.align := by
  simp [fields, headerFields]

theorem structAlign_fields (length : Nat) : structAlign (fields length) = 8 := by
  rw [fields, structAlign_append]
  rfl

/-- The size of a value with a payload of `length` bytes. -/
theorem sizeOf_eq (length : Nat) : sizeOf length = roundUp (252 + length) 8 := by
  rw [sizeOf, structSize, structAlign_fields, fields, endOf_append]
  change roundUp (roundUp payloadOffset 1 + length) 8 = _
  rw [roundUp_one, payloadOffset_eq]

theorem castFromVoidPtr_eq_some_iff {address memorySize : Nat} {reference : Reference} :
    castFromVoidPtr address memorySize = some reference ↔
      address % alignOfFields = 0 ∧ sizeOfFields < memorySize ∧
        reference = ⟨address, memorySize - sizeOfFields⟩ := by
  unfold castFromVoidPtr
  by_cases aligned : address % alignOfFields = 0
  · by_cases empty : memorySize - sizeOfFields = 0
    · have small : ¬ sizeOfFields < memorySize := by omega
      simp only [aligned, empty, small, ne_eq, not_true_eq_false, if_false, if_true,
        reduceCtorEq, false_and, and_false]
    · simp only [aligned, empty, ne_eq, not_true_eq_false, if_false, Option.some.injEq, true_and]
      constructor
      · intro same
        exact ⟨by omega, same.symm⟩
      · rintro ⟨_, same⟩
        exact same.symm
  · simp [aligned]

/-- The fields never overlap. -/
theorem fields_apart (length : Nat) :
    (spans 0 (fields length)).Pairwise fun first second => first.2 ≤ second.1 :=
  spans_disjoint (align_pos_of_mem_fields length) 0

/-- A value fits into the mapping it was made from exactly if the size of the mapping
is at most four bytes past a multiple of eight. -/
theorem fitsIn_iff_mod_le_four {address memorySize : Nat} {reference : Reference}
    (cast : castFromVoidPtr address memorySize = some reference) :
    reference.FitsIn memorySize ↔ memorySize % 8 ≤ 4 := by
  obtain ⟨_, large, rfl⟩ := castFromVoidPtr_eq_some_iff.mp cast
  rw [sizeOfFields_eq] at large ⊢
  have behind : 252 + (memorySize - 256) = memorySize - 4 := by omega
  have size : sizeOf (memorySize - 256) = (memorySize - 4 + 8 - 1) / 8 * 8 := by
    rw [sizeOf_eq, behind, roundUp]
  constructor
  · intro fits
    have inside := fits.value
    rw [size] at inside
    omega
  · intro near
    constructor
    · exact fields_apart _
    · rw [payloadOffset_eq, behind]
      omega
    · rw [size]
      omega

/-- A mapping of 264 bytes holds its value. -/
theorem fitsIn_264 : (⟨4096, 8⟩ : Reference).FitsIn 264 :=
  (fitsIn_iff_mod_le_four (by decide : castFromVoidPtr 4096 264 = _)).mpr (by decide)

/-- A value made from a mapping of 261 bytes takes 264. -/
theorem value_exceeds_mapping :
    castFromVoidPtr 4096 261 = some ⟨4096, 5⟩ ∧ sizeOf 5 = 264 ∧
      ¬ (⟨4096, 5⟩ : Reference).FitsIn 261 := by
  refine ⟨by decide, by decide, ?_⟩
  intro fits
  exact absurd fits.value (by decide)

end SharedMessage

end RsIpc
