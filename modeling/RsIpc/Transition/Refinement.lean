import RsIpc.Transition.Core

/-!
# Refinement

A machine says what may happen and what is seen of it, without saying how.  A
system refines a machine if the machine can follow each of its steps and shows
what the step shows.  Then whatever is seen of a run of the system is seen of a
run of the machine.
-/

namespace RsIpc.Transition

universe u v w x y

/-- Steps that are seen, and hidden ones.  A machine need not be executable. -/
structure Machine (T : Type u) (O : Type v) where
  initial : T → Prop
  step : T → Option O → T → Prop

namespace Machine

variable {T : Type u} {O : Type v}

/-- What is seen of a run of the machine. -/
inductive Shows (machine : Machine T O) (source : T) : List O → T → Prop
  | refl : Shows machine source [] source
  | step {middle target : T} {seen : List O} {observation : Option O} :
      Shows machine source seen middle → machine.step middle observation target →
      Shows machine source (seen ++ observation.toList) target

theorem Shows.single {machine : Machine T O} {source target : T} {observation : Option O}
    (step : machine.step source observation target) :
    machine.Shows source observation.toList target :=
  .step .refl step

theorem Shows.hidden {machine : Machine T O} {source middle target : T} {seen : List O}
    (run : machine.Shows source seen middle) (step : machine.step middle none target) :
    machine.Shows source seen target := by
  simpa using Shows.step run step

theorem Shows.trans {machine : Machine T O} {source middle target : T} {early late : List O}
    (first : machine.Shows source early middle) (second : machine.Shows middle late target) :
    machine.Shows source (early ++ late) target := by
  induction second with
  | refl =>
      rw [List.append_nil]
      exact first
  | step run step ih =>
      rw [← List.append_assoc]
      exact .step ih step

end Machine

namespace System

variable {S : Type u} {L : Type v} {T : Type w} {O : Type x} {K : Type y}

/-- What is seen of a run of the system. -/
def shown (system : System S L) (view : S → L → Option O) : S → List L → List O
  | _, [] => []
  | state, label :: labels =>
      match system.step state label with
      | none => []
      | some next => (view state label).toList ++ shown system view next labels

/-- The machine follows the system through all runs whose steps meet the condition. -/
structure Refines (system : System S L) (ok : StepCondition S L) (view : S → L → Option O)
    (machine : Machine T O) (rel : S → T → Prop) : Prop where
  start : ∀ {state}, system.initial state → ∃ abstract, machine.initial abstract ∧ rel state abstract
  step : ∀ {source target label abstract}, system.ReachableVia ok source →
    system.step source label = some target → ok source label target → rel source abstract →
      ∃ next, machine.Shows abstract (view source label).toList next ∧ rel target next

variable {system : System S L} {ok : StepCondition S L} {view : S → L → Option O}
  {machine : Machine T O} {rel : S → T → Prop}

/-- A run of the system is followed from any state that is related to its source. -/
theorem Refines.exec (refines : system.Refines ok view machine rel) {source target : S}
    {abstract : T} {labels : List L} (reachable : system.ReachableVia ok source)
    (related : rel source abstract) (run : system.exec source labels = some target)
    (meet : system.StepsMeet ok source labels) :
    ∃ next, machine.Shows abstract (system.shown view source labels) next ∧ rel target next := by
  induction labels generalizing source abstract with
  | nil =>
      cases run
      exact ⟨abstract, .refl, related⟩
  | cons label labels ih =>
      obtain ⟨middle, step, rest⟩ := Option.bind_eq_some_iff.mp run
      obtain ⟨holds, meet⟩ := meet middle step
      obtain ⟨next, first, related⟩ := refines.step reachable step holds related
      obtain ⟨last, second, related⟩ := ih (.step reachable step holds) related rest meet
      refine ⟨last, ?_, related⟩
      rw [shown, step]
      exact first.trans second

/-- What is seen of a run of the system is seen of a run of the machine. -/
theorem Refines.traces (refines : system.Refines ok view machine rel) {start target : S}
    {labels : List L} (initial : system.initial start)
    (run : system.exec start labels = some target) (meet : system.StepsMeet ok start labels) :
    ∃ abstract last, machine.initial abstract ∧
      machine.Shows abstract (system.shown view start labels) last ∧ rel target last := by
  obtain ⟨abstract, begins, related⟩ := refines.start initial
  obtain ⟨last, shows, related⟩ := refines.exec (.initial initial) related run meet
  exact ⟨abstract, last, begins, shows, related⟩

/-- A part of the system that takes a step of its own, or stays where it is, with each
step of the whole. -/
theorem ReachableVia.part {part : System T K} {partOk : StepCondition T K} (view : S → T)
    (start : ∀ {state}, system.initial state → part.initial (view state))
    (steps : ∀ {source target label}, system.ReachableVia ok source →
      system.step source label = some target → ok source label target →
      view target = view source ∨
        ∃ taken, part.step (view source) taken = some (view target) ∧
          partOk (view source) taken (view target))
    {state : S} (reachable : system.ReachableVia ok state) : part.ReachableVia partOk (view state) := by
  induction reachable with
  | initial initial => exact .initial (start initial)
  | step before step holds ih =>
      rcases steps before step holds with same | ⟨taken, partStep, partHolds⟩
      · rw [same]
        exact ih
      · exact ih.step partStep partHolds

end System

end RsIpc.Transition
