import Mathlib.Data.List.Basic

/-!
# Numbers taken and recorded later

Calls take larger and larger numbers one after another, and each of them writes its
number to one register in a step of its own.  The register holds the largest number
that was written as long as nobody writes while a smaller number is still to come.
-/

namespace RsIpc.Protocol

universe u v

variable {α : Type u} {κ : Type v} [LT α]

/-- The numbers taken so far, the register, and the calls that have a number which
they have not written. -/
structure Recorded (taken : List α) (stored bottom : α) (pending : κ → α → Prop) : Prop where
  increasing : taken.Pairwise (· < ·)
  mem : ∀ {call number}, pending call number → number ∈ taken
  later : ∀ {call number}, pending call number → stored < number
  single : ∀ {first second number}, pending first number → pending second number → first = second
  last : taken.getLastD bottom = stored ∨ ∃ call, pending call (taken.getLastD bottom)

namespace Recorded

variable {taken : List α} {stored bottom : α} {pending pending' : κ → α → Prop}

/-- Before any number is taken. -/
theorem start (none : ∀ call number, ¬ pending call number) :
    Recorded [] bottom bottom pending where
  increasing := List.Pairwise.nil
  mem holds := absurd holds (none _ _)
  later holds := absurd holds (none _ _)
  single holds := absurd holds (none _ _)
  last := .inl rfl

/-- Once every number is written, the register holds the last. -/
theorem stored_eq (recorded : Recorded taken stored bottom pending)
    (none : ∀ call number, ¬ pending call number) : stored = taken.getLastD bottom := by
  rcases recorded.last with same | ⟨call, holds⟩
  · exact same.symm
  · exact absurd holds (none _ _)

/-- Other steps leave it alone. -/
theorem congr (recorded : Recorded taken stored bottom pending)
    (same : ∀ call number, pending' call number ↔ pending call number) :
    Recorded taken stored bottom pending' where
  increasing := recorded.increasing
  mem holds := recorded.mem ((same _ _).mp holds)
  later holds := recorded.later ((same _ _).mp holds)
  single first second := recorded.single ((same _ _).mp first) ((same _ _).mp second)
  last := recorded.last.imp_right fun ⟨call, holds⟩ => ⟨call, (same _ _).mpr holds⟩

end Recorded

/-! ## In a linear order -/

variable [LE α] [Std.IsLinearOrder α] [Std.LawfulOrderLT α]

/-- No number of an increasing list is above its last. -/
theorem le_getLastD_of_pairwise_lt {numbers : List α} (increasing : numbers.Pairwise (· < ·))
    {number : α} (mem : number ∈ numbers) (bottom : α) : number ≤ numbers.getLastD bottom := by
  rcases List.eq_nil_or_concat numbers with rfl | ⟨init, last, rfl⟩
  · cases mem
  · rw [List.concat_eq_append] at mem increasing ⊢
    rw [List.getLastD_concat]
    rcases List.mem_append.mp mem with before | here
    · exact Std.le_of_lt
        ((List.pairwise_append.mp increasing).2.2 number before last (by simp))
    · rw [List.mem_singleton] at here
      exact Std.le_of_eq here

/-- An increasing list stays so when a larger number is put behind its last. -/
theorem pairwise_lt_concat {numbers : List α} {bottom number : α}
    (increasing : numbers.Pairwise (· < ·)) (larger : numbers.getLastD bottom < number) :
    (numbers ++ [number]).Pairwise (· < ·) := by
  rw [List.pairwise_append]
  refine ⟨increasing, List.pairwise_singleton _ _, ?_⟩
  intro earlier mem later single
  rw [List.mem_singleton] at single
  subst single
  exact Std.lt_of_le_of_lt (le_getLastD_of_pairwise_lt increasing mem bottom) larger

namespace Recorded

variable {taken : List α} {stored bottom : α} {pending pending' : κ → α → Prop}

/-- The register is never above the number taken last. -/
theorem stored_le (recorded : Recorded taken stored bottom pending) :
    stored ≤ taken.getLastD bottom := by
  rcases recorded.last with same | ⟨call, holds⟩
  · exact Std.le_of_eq same.symm
  · exact Std.le_of_lt (recorded.later holds)

/-- A call takes a larger number than all before. -/
theorem take (recorded : Recorded taken stored bottom pending) {taker : κ} {number : α}
    (larger : taken.getLastD bottom < number)
    (now : ∀ call other, pending' call other ↔ call = taker ∧ other = number ∨ pending call other) :
    Recorded (taken ++ [number]) stored bottom pending' where
  increasing := pairwise_lt_concat recorded.increasing larger
  mem := by
    intro call other holds
    rw [List.mem_append, List.mem_singleton]
    rcases (now call other).mp holds with ⟨_, here⟩ | before
    · exact .inr here
    · exact .inl (recorded.mem before)
  later := by
    intro call other holds
    rcases (now call other).mp holds with ⟨_, rfl⟩ | before
    · exact Std.lt_of_le_of_lt recorded.stored_le larger
    · exact recorded.later before
  single := by
    -- A number that was taken before is not the new one.
    have old : ∀ {call}, ¬ pending call number := by
      intro call holds
      exact Std.not_le_of_gt larger
        (le_getLastD_of_pairwise_lt recorded.increasing (recorded.mem holds) bottom)
    intro first second other firstHolds secondHolds
    rcases (now first other).mp firstHolds with ⟨rfl, rfl⟩ | firstBefore
    · rcases (now second _).mp secondHolds with ⟨rfl, _⟩ | secondBefore
      · rfl
      · exact absurd secondBefore old
    · rcases (now second other).mp secondHolds with ⟨_, rfl⟩ | secondBefore
      · exact absurd firstBefore old
      · exact recorded.single firstBefore secondBefore
  last := by
    right
    refine ⟨taker, ?_⟩
    rw [List.getLastD_concat]
    exact (now taker number).mpr (.inl ⟨rfl, rfl⟩)

/-- The call with the smallest number that is not written writes it. -/
theorem store (recorded : Recorded taken stored bottom pending) {writer : κ} {number : α}
    (was : pending writer number) (only : ∀ other, pending writer other → other = number)
    (first : ∀ call other, call ≠ writer → pending call other → number < other)
    (now : ∀ call other, pending' call other ↔ call ≠ writer ∧ pending call other) :
    Recorded taken number bottom pending' where
  increasing := recorded.increasing
  mem holds := recorded.mem ((now _ _).mp holds).2
  later holds := first _ _ ((now _ _).mp holds).1 ((now _ _).mp holds).2
  single one another := recorded.single ((now _ _).mp one).2 ((now _ _).mp another).2
  last := by
    have upper := le_getLastD_of_pairwise_lt recorded.increasing (recorded.mem was) bottom
    rcases recorded.last with same | ⟨call, holds⟩
    · have lower := recorded.later was
      rw [← same] at lower
      exact absurd upper (Std.not_le_of_gt lower)
    · by_cases here : call = writer
      · subst here
        exact .inl (only _ holds)
      · exact .inr ⟨call, (now call _).mpr ⟨here, holds⟩⟩

end Recorded

end RsIpc.Protocol
