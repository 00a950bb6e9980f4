import Mathlib.Data.Int.ModEq
import RsIpc.SharedMessage.History

/-!
# Sequence numbers

The sequence number is a function of the number of publishes: the counter skips
zero, so it starts at zero and then runs through `1, ..., 2 ^ 62 - 1` again and
again.  Everything that readers can conclude from numbers rests on this.
-/

namespace RsIpc

open Transition SequenceState

universe u

/-! ## The number of the `k`-th publish -/

/-- The sequence number after `count` publishes. -/
def numberAfter : Nat → Nat
  | 0 => 0
  | count + 1 => count % period + 1

@[simp]
theorem numberAfter_zero : numberAfter 0 = 0 :=
  rfl

theorem numberAfter_succ (count : Nat) : numberAfter (count + 1) = count % period + 1 :=
  rfl

theorem numberAfter_succ_eq (count : Nat) :
    numberAfter (count + 1) = numberAfter count % period + 1 := by
  cases count with
  | zero => rfl
  | succ count =>
      rw [numberAfter_succ, numberAfter_succ, Nat.mod_add_mod]

theorem numberAfter_lt (count : Nat) : numberAfter count < 2 ^ 62 := by
  cases count with
  | zero => decide
  | succ count =>
      have bound := Nat.mod_lt count (show 0 < period by decide)
      rw [numberAfter_succ]
      exact Nat.lt_of_le_of_lt (Nat.succ_le_of_lt bound) (by decide)

theorem numberAfter_le (count : Nat) : numberAfter count ≤ count := by
  cases count with
  | zero => exact Nat.le_refl 0
  | succ count => exact Nat.succ_le_succ (Nat.mod_le count period)

theorem numberAfter_of_lt {count : Nat} (bound : count ≤ period) : numberAfter count = count := by
  cases count with
  | zero => rfl
  | succ count => rw [numberAfter_succ, Nat.mod_eq_of_lt (by omega)]

theorem numberAfter_ne_zero_iff (count : Nat) : numberAfter count ≠ 0 ↔ count ≠ 0 := by
  cases count with
  | zero => simp
  | succ count => simp [numberAfter_succ]

/-- Publishes less than a period apart have different numbers. -/
theorem numberAfter_injOn {first second : Nat} (positive : 0 < first) (lt : first < second)
    (close : second - first < period) : numberAfter first ≠ numberAfter second := by
  obtain ⟨first, rfl⟩ := Nat.exists_eq_succ_of_ne_zero (Nat.ne_of_gt positive)
  obtain ⟨second, rfl⟩ := Nat.exists_eq_succ_of_ne_zero (show second ≠ 0 by omega)
  rw [Nat.succ_eq_add_one, Nat.succ_eq_add_one, numberAfter_succ, numberAfter_succ]
  intro equal
  have congruent : first % period = second % period := Nat.succ.inj equal
  have divides : period ∣ second - first :=
    (Nat.modEq_iff_dvd' (by omega)).mp congruent
  exact absurd (Nat.le_of_dvd (by omega) divides) (by omega)

/-- One publish changes the number. -/
theorem numberAfter_succ_ne (count : Nat) : numberAfter (count + 1) ≠ numberAfter count := by
  cases count with
  | zero => decide
  | succ count => exact (numberAfter_injOn (by omega) (by omega) (by rw [Nat.add_sub_cancel_left]; decide)).symm

section Runs

variable {ι : Type u} [DecidableEq ι] {targetRead consumers : BitVec 16}

/-- The number of publishes so far. -/
def State.publishes (state : State ι) : Nat :=
  (History.published state.log).length

theorem State.PublishStep.publishes {source target : State ι} {party : ι} {size : Nat}
    (publish : source.PublishStep party size target) :
    target.publishes = source.publishes + 1 := by
  simp [State.publishes, publish.published]

theorem publishes_le_of_step {source target : State ι} {party : ι} {choice : Choice}
    (step : source.step (party, choice) = some target) : source.publishes ≤ target.publishes := by
  rcases publishStep_or_same step with ⟨size, publish⟩ | ⟨published, _⟩
  · exact publish.publishes ▸ Nat.le_succ _
  · exact (congrArg List.length published).ge

/-- The sequence number is determined by the number of publishes. -/
theorem currentSequence_eq_numberAfter {state : State ι}
    (reachable : (system ι targetRead consumers).Reachable state) :
    state.msg.currentSequence.toNat = numberAfter state.publishes := by
  refine reachable.invariant
    (fun state => state.msg.currentSequence.toNat = numberAfter state.publishes) ?_ ?_
  · rintro _ ⟨capacity, rfl⟩
    simp [SharedMessage.currentSequence, State.publishes, History.published]
  · rintro source ⟨party, choice⟩ target _ number step _
    rcases publishStep_or_same step with ⟨size, publish⟩ | ⟨published, sequence⟩
    · rw [publish.currentSequence, publish.publishes, numberAfter_succ_eq, ← number]
      exact toNat_nextSequence (toNat_sequence_ofPacked_lt _)
    · rw [sequence, number, State.publishes, State.publishes, published]

/-- The number of a message is the number after the publish that made it. -/
theorem published_sequence_eq {state : State ι}
    (reachable : (system ι targetRead consumers).Reachable state) (index : Nat)
    (bound : index < (History.published state.log).length) :
    (History.published state.log)[index].sequence.toNat = numberAfter (index + 1) := by
  refine reachable.invariant (fun state => ∀ index (bound : index < (History.published state.log).length),
    (History.published state.log)[index].sequence.toNat = numberAfter (index + 1)) ?_ ?_ index bound
  · rintro _ ⟨capacity, rfl⟩ index bound
    simp [History.published] at bound
  · rintro source ⟨party, choice⟩ target before numbers step _ index bound
    rcases publishStep_or_same step with ⟨size, publish⟩ | ⟨published, _⟩
    · have published := publish.published
      simp only [published] at bound ⊢
      by_cases old : index < (History.published source.log).length
      · rw [List.getElem_append_left old]
        exact numbers index old
      · have last : index = (History.published source.log).length := by
          rw [List.length_append, List.length_singleton] at bound
          omega
        subst last
        rw [List.getElem_concat_length rfl]
        have current := currentSequence_eq_numberAfter (.step before step trivial)
        rw [publish.currentSequence, publish.publishes] at current
        exact current
    · simp only [published] at bound ⊢
      exact numbers index bound

end Runs

end RsIpc
