import Mathlib.Algebra.GroupWithZero.Nat
import Mathlib.Data.Nat.Basic

/-!
# Structs in memory

The layout of a struct whose fields stand at increasing aligned offsets, and
whose size is the end of its last field rounded up to its alignment.
-/

namespace RsIpc.Layout

/-- The size and the alignment of a type. -/
structure TypeLayout where
  size : Nat
  align : Nat
  deriving DecidableEq, Repr

/-- The least multiple of `align` at or above `offset`. -/
def roundUp (offset align : Nat) : Nat :=
  (offset + align - 1) / align * align

theorem le_roundUp (offset : Nat) {align : Nat} (positive : 0 < align) :
    offset ≤ roundUp offset align := by
  have split := Nat.div_add_mod (offset + align - 1) align
  have rest := Nat.mod_lt (offset + align - 1) positive
  rw [Nat.mul_comm] at split
  unfold roundUp
  omega

theorem roundUp_lt (offset : Nat) {align : Nat} (positive : 0 < align) :
    roundUp offset align < offset + align := by
  have le := Nat.div_mul_le_self (offset + align - 1) align
  unfold roundUp
  omega

@[simp]
theorem roundUp_one (offset : Nat) : roundUp offset 1 = offset := by
  simp [roundUp]

/-! ## Fields -/

/-- The first byte of each field and the first byte behind it. -/
def spans : Nat → List TypeLayout → List (Nat × Nat)
  | _, [] => []
  | offset, field :: fields =>
      (roundUp offset field.align, roundUp offset field.align + field.size) ::
        spans (roundUp offset field.align + field.size) fields

/-- The first byte behind the fields. -/
def endOf : Nat → List TypeLayout → Nat
  | offset, [] => offset
  | offset, field :: fields => endOf (roundUp offset field.align + field.size) fields

/-- The alignment of a struct is the largest of its fields'. -/
def structAlign (fields : List TypeLayout) : Nat :=
  fields.foldr (fun field align => max field.align align) 1

/-- The size of a struct. -/
def structSize (fields : List TypeLayout) : Nat :=
  roundUp (endOf 0 fields) (structAlign fields)

theorem endOf_append (offset : Nat) (first second : List TypeLayout) :
    endOf offset (first ++ second) = endOf (endOf offset first) second := by
  induction first generalizing offset with
  | nil => rfl
  | cons field first ih => exact ih _

theorem spans_append (offset : Nat) (first second : List TypeLayout) :
    spans offset (first ++ second) = spans offset first ++ spans (endOf offset first) second := by
  induction first generalizing offset with
  | nil => rfl
  | cons field first ih => exact congrArg _ (ih _)

theorem structAlign_append (first second : List TypeLayout) :
    structAlign (first ++ second) = max (structAlign first) (structAlign second) := by
  induction first with
  | nil =>
      have positive : 1 ≤ structAlign second := by
        induction second with
        | nil => exact Nat.le_refl 1
        | cons field second ih => exact Nat.le_trans ih (Nat.le_max_right _ _)
      exact (Nat.max_eq_right positive).symm
  | cons field first ih =>
      change max field.align (structAlign (first ++ second)) = _
      rw [ih]
      exact (Nat.max_assoc _ _ _).symm

variable {fields : List TypeLayout}

theorem le_endOf (aligned : ∀ field ∈ fields, 0 < field.align) (offset : Nat) :
    offset ≤ endOf offset fields := by
  induction fields generalizing offset with
  | nil => exact Nat.le_refl offset
  | cons field fields ih =>
      have here := le_roundUp offset (aligned field (List.mem_cons_self ..))
      have later := ih (fun field mem => aligned field (List.mem_cons_of_mem _ mem))
        (roundUp offset field.align + field.size)
      exact Nat.le_trans (Nat.le_add_right_of_le here) later

/-- Every field lies behind the start and in front of the end. -/
theorem span_bounds (aligned : ∀ field ∈ fields, 0 < field.align) {offset : Nat}
    {span : Nat × Nat} (mem : span ∈ spans offset fields) :
    offset ≤ span.1 ∧ span.1 ≤ span.2 ∧ span.2 ≤ endOf offset fields := by
  induction fields generalizing offset with
  | nil => cases mem
  | cons field fields ih =>
      have here := le_roundUp offset (aligned field (List.mem_cons_self ..))
      have rest : ∀ field ∈ fields, 0 < field.align :=
        fun field mem => aligned field (List.mem_cons_of_mem _ mem)
      rcases List.mem_cons.mp mem with rfl | later
      · exact ⟨here, Nat.le_add_right _ _, le_endOf rest _⟩
      · obtain ⟨lower, ordered, upper⟩ := ih rest later
        exact ⟨Nat.le_trans (Nat.le_add_right_of_le here) lower, ordered, upper⟩

/-- A field ends before the next one starts. -/
theorem spans_disjoint (aligned : ∀ field ∈ fields, 0 < field.align) (offset : Nat) :
    (spans offset fields).Pairwise fun first second => first.2 ≤ second.1 := by
  induction fields generalizing offset with
  | nil => exact List.Pairwise.nil
  | cons field fields ih =>
      have rest : ∀ field ∈ fields, 0 < field.align :=
        fun field mem => aligned field (List.mem_cons_of_mem _ mem)
      refine List.Pairwise.cons ?_ (ih rest _)
      intro span mem
      exact (span_bounds rest mem).1

end RsIpc.Layout
