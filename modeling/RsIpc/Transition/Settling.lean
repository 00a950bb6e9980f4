import RsIpc.Transition.Core
import Mathlib.Algebra.Order.BigOperators.Group.Finset
import Mathlib.Data.Fintype.BigOperators
import Mathlib.Data.Prod.Lex
import Mathlib.Order.WellFounded

/-!
# Systems that settle

The inside labels are those that nobody outside decides on.  A system settles if its
inside steps come to an end in whatever order they are taken, which a rank in a
well-founded order shows.  Where many parties take the steps, the rank is a sum over
the parties at each of several levels: a step lowers the sum at one level, leaves the
levels above it alone, and may raise those below.
-/

namespace RsIpc.Transition

universe u v w

namespace System

variable {S : Type u} {L : Type v} {system : System S L} {inside : L → Prop}

/-- An inside step leads from the source to the target. -/
def Leads (system : System S L) (inside : L → Prop) (target source : S) : Prop :=
  ∃ label, inside label ∧ system.step source label = some target

/-- There is no infinite run of inside steps, from any state. -/
def Settles (system : System S L) (inside : L → Prop) : Prop :=
  WellFounded (system.Leads inside)

/-- No inside step is left. -/
def AtRest (system : System S L) (inside : L → Prop) (state : S) : Prop :=
  ∀ label, inside label → system.step state label = none

/-- In whatever order inside steps that meet the condition are taken, they come to an
end, and where no inside step is left the state is good. -/
inductive Ends (system : System S L) (inside : L → Prop) (ok : StepCondition S L)
    (good : S → Prop) : S → Prop
  | intro {state : S} (rest : system.AtRest inside state → good state)
      (steps : ∀ label target, inside label → system.step state label = some target →
        ok state label target → Ends system inside ok good target) :
      Ends system inside ok good state

theorem Settles.of_rank {α : Type w} [Preorder α] [WellFoundedLT α] (rank : S → α)
    (lowers : ∀ {source label target}, inside label → system.step source label = some target →
      rank target < rank source) : system.Settles inside := by
  apply Subrelation.wf _ (InvImage.wf rank wellFounded_lt)
  rintro target source ⟨label, within, step⟩
  exact lowers within step

/-- What such steps keep holds where the run ends. -/
theorem Settles.ends (settles : system.Settles inside) {ok : StepCondition S L}
    (Inv : S → Prop) {good : S → Prop}
    (keeps : ∀ {source label target}, Inv source → inside label →
      system.step source label = some target → ok source label target → Inv target)
    (rest : ∀ {state}, Inv state → system.AtRest inside state → good state) {state : S}
    (holds : Inv state) : system.Ends inside ok good state := by
  induction state using settles.induction with
  | h state ih =>
      constructor
      · exact rest holds
      · intro label target within step meets
        exact ih target ⟨label, within, step⟩ (keeps holds within step meets)

end System

/-! ## Ranks of many parties -/

section Ranks

variable {ι : Type u} [Fintype ι] {before after : ι → Nat}

/-- What one party gains or loses, the sum gains or loses, if the others gain nothing. -/
theorem sum_add_le {party : ι} {lost gained : Nat}
    (own : after party + lost ≤ before party + gained)
    (others : ∀ other, other ≠ party → after other ≤ before other) :
    ∑ other, after other + lost ≤ ∑ other, before other + gained := by
  classical
  have rest : ∑ other ∈ Finset.univ.erase party, after other ≤
      ∑ other ∈ Finset.univ.erase party, before other := by
    apply Finset.sum_le_sum
    intro other mem
    exact others other (Finset.ne_of_mem_erase mem)
  have first : ∑ other ∈ Finset.univ.erase party, after other + after party =
      ∑ other, after other := Finset.sum_erase_add _ _ (Finset.mem_univ party)
  have second : ∑ other ∈ Finset.univ.erase party, before other + before party =
      ∑ other, before other := Finset.sum_erase_add _ _ (Finset.mem_univ party)
  omega

/-- Who goes down takes the sum with it. -/
theorem sum_lt_of_lowered {party : ι} (lower : after party < before party)
    (others : ∀ other, other ≠ party → after other ≤ before other) :
    ∑ other, after other < ∑ other, before other :=
  @sum_add_le _ _ _ _ party 1 0 lower others

theorem sum_le_of_kept {party : ι} (kept : after party ≤ before party)
    (others : ∀ other, other ≠ party → after other ≤ before other) :
    ∑ other, after other ≤ ∑ other, before other :=
  @sum_add_le _ _ _ _ party 0 0 kept others

end Ranks

section Levels

variable {α : Type u} {β : Type v} [PartialOrder α] [Preorder β]

theorem level_lt_of_lt {high low : α} {first second : β} (lower : low < high) :
    toLex (low, first) < toLex (high, second) :=
  Prod.Lex.toLex_lt_toLex.mpr (.inl lower)

theorem level_lt_of_le {high low : α} {first second : β} (kept : low ≤ high)
    (lower : first < second) : toLex (low, first) < toLex (high, second) := by
  rcases kept.lt_or_eq with less | same
  · exact level_lt_of_lt less
  · exact Prod.Lex.toLex_lt_toLex.mpr (.inr ⟨same, lower⟩)

end Levels

end RsIpc.Transition
