import Mathlib.Algebra.GroupWithZero.Nat

/-!
# Labelled transition systems

A system is a set of initial states and an executable labelled step.  Runs are
lists of labels, so a concrete run can be evaluated; reachability is relative
to a condition on the steps taken, so that a promise made by the environment
and the steps it excludes are stated once, as a predicate.
-/

namespace RsIpc.Transition

universe u v w

/-- A partial labelled transition. -/
abbrev Step (S : Type u) (L : Type v) := S → L → Option S

/-- An initial condition and a step function. -/
structure System (S : Type u) (L : Type v) where
  initial : S → Prop
  step : Step S L

/-- A condition on single steps: source, label and target. -/
abbrev StepCondition (S : Type u) (L : Type v) := S → L → S → Prop

namespace System

variable {S : Type u} {L : Type v}

/-- The states reached by runs whose steps all meet `ok`. -/
inductive ReachableVia (system : System S L) (ok : StepCondition S L) : S → Prop
  | initial {state : S} : system.initial state → ReachableVia system ok state
  | step {source target : S} {label : L} :
      ReachableVia system ok source → system.step source label = some target →
      ok source label target → ReachableVia system ok target

/-- The states reached by any run. -/
abbrev Reachable (system : System S L) : S → Prop :=
  system.ReachableVia fun _ _ _ => True

/-- A run that meets one condition meets another if its steps do. -/
theorem ReachableVia.refine {system : System S L} {strong weak : StepCondition S L} {state : S}
    (reachable : system.ReachableVia strong state)
    (transfer : ∀ {source label target}, system.ReachableVia strong source →
      system.step source label = some target → strong source label target →
      weak source label target) : system.ReachableVia weak state := by
  induction reachable with
  | initial start => exact .initial start
  | step before step ok ih => exact .step ih step (transfer before step ok)

theorem ReachableVia.mono {system : System S L} {strong weak : StepCondition S L}
    (weaken : ∀ {source label target}, strong source label target → weak source label target)
    {state : S} (reachable : system.ReachableVia strong state) :
    system.ReachableVia weak state :=
  reachable.refine fun _ _ ok => weaken ok

theorem ReachableVia.reachable {system : System S L} {ok : StepCondition S L} {state : S}
    (reachable : system.ReachableVia ok state) : system.Reachable state :=
  reachable.mono fun _ => trivial

/-- The invariant rule.  The step case may use that its source is reachable, so
invariants already established are available when a further one is proved. -/
theorem ReachableVia.invariant {system : System S L} {ok : StepCondition S L} {state : S}
    (reachable : system.ReachableVia ok state) (Inv : S → Prop)
    (start : ∀ {state}, system.initial state → Inv state)
    (preserve : ∀ {source label target}, system.ReachableVia ok source → Inv source →
      system.step source label = some target → ok source label target → Inv target) :
    Inv state := by
  induction reachable with
  | initial initial => exact start initial
  | step before step ok ih => exact preserve before ih step ok

/-! ## Runs as lists of labels -/

/-- Take the labelled steps one after another. -/
def exec (system : System S L) : S → List L → Option S
  | state, [] => some state
  | state, label :: labels => (system.step state label).bind fun next => exec system next labels

@[simp]
theorem exec_nil (system : System S L) (state : S) : system.exec state [] = some state :=
  rfl

@[simp]
theorem exec_cons (system : System S L) (state : S) (label : L) (labels : List L) :
    system.exec state (label :: labels) =
      (system.step state label).bind fun next => system.exec next labels :=
  rfl

/-- One run after another. -/
theorem exec_append {system : System S L} {source middle target : S} {early late : List L}
    (first : system.exec source early = some middle) (second : system.exec middle late = some target) :
    system.exec source (early ++ late) = some target := by
  induction early generalizing source with
  | nil =>
      cases first
      exact second
  | cons label early ih =>
      obtain ⟨next, step, rest⟩ := Option.bind_eq_some_iff.mp first
      rw [List.cons_append, exec_cons, step]
      exact ih rest

/-- The condition holds of every step of the run. -/
def StepsMeet (system : System S L) (ok : StepCondition S L) : S → List L → Prop
  | _, [] => True
  | state, label :: labels =>
      ∀ next, system.step state label = some next → ok state label next ∧ StepsMeet system ok next labels

/-- Run the labels and test the condition at each step. -/
def checkSteps (system : System S L) (ok : StepCondition S L)
    [∀ source label target, Decidable (ok source label target)] : S → List L → Bool
  | _, [] => true
  | state, label :: labels =>
      match system.step state label with
      | none => true
      | some next => decide (ok state label next) && checkSteps system ok next labels

theorem checkSteps_iff (system : System S L) (ok : StepCondition S L)
    [∀ source label target, Decidable (ok source label target)] (state : S) (labels : List L) :
    system.checkSteps ok state labels = true ↔ system.StepsMeet ok state labels := by
  induction labels generalizing state with
  | nil => exact iff_of_true rfl trivial
  | cons label labels ih =>
      cases step : system.step state label with
      | none => simp [checkSteps, StepsMeet, step]
      | some next => simp [checkSteps, StepsMeet, step, ih]

instance decidableStepsMeet (system : System S L) (ok : StepCondition S L)
    [∀ source label target, Decidable (ok source label target)] (state : S) (labels : List L) :
    Decidable (system.StepsMeet ok state labels) :=
  decidable_of_iff _ (system.checkSteps_iff ok state labels)

/-- The property holds of every state that the run visits. -/
def StatesMeet (system : System S L) (good : S → Prop) : S → List L → Prop
  | state, [] => good state
  | state, label :: labels => good state ∧
      ∀ next, system.step state label = some next → StatesMeet system good next labels

theorem ReachableVia.exec {system : System S L} {ok : StepCondition S L} {source target : S}
    {labels : List L} (reachable : system.ReachableVia ok source)
    (run : system.exec source labels = some target)
    (meet : system.StepsMeet ok source labels) : system.ReachableVia ok target := by
  induction labels generalizing source with
  | nil =>
      cases run
      exact reachable
  | cons label labels ih =>
      obtain ⟨next, step, rest⟩ := Option.bind_eq_some_iff.mp run
      obtain ⟨here, later⟩ := meet next step
      exact ih (reachable.step step here) rest later

/-- Every run from a reachable state ends in a reachable state. -/
theorem Reachable.exec {system : System S L} {source target : S} {labels : List L}
    (reachable : system.Reachable source) (run : system.exec source labels = some target) :
    system.Reachable target := by
  induction labels generalizing source with
  | nil =>
      cases run
      exact reachable
  | cons label labels ih =>
      obtain ⟨next, step, rest⟩ := Option.bind_eq_some_iff.mp run
      exact ih (.step reachable step trivial) rest

/-- A property that no step breaks holds along the whole run. -/
theorem statesMeet_of_reachableVia {system : System S L} {ok : StepCondition S L}
    {good : S → Prop} (invariant : ∀ {state}, system.ReachableVia ok state → good state)
    {source : S} (reachable : system.ReachableVia ok source) {labels : List L}
    (meet : system.StepsMeet ok source labels) : system.StatesMeet good source labels := by
  induction labels generalizing source with
  | nil => exact invariant reachable
  | cons label labels ih =>
      refine ⟨invariant reachable, fun next step => ?_⟩
      obtain ⟨here, later⟩ := meet next step
      exact ih (reachable.step step here) later

/-- What holds of a reachable state and is kept by the steps of a run from it holds
at the end of the run. -/
theorem inv_of_exec {system : System S L} {ok : StepCondition S L} (Inv : S → Prop)
    (preserve : ∀ {source label target}, system.Reachable source → Inv source →
      system.step source label = some target → ok source label target → Inv target)
    {source target : S} {labels : List L} (reachable : system.Reachable source)
    (start : Inv source) (run : system.exec source labels = some target)
    (meet : system.StepsMeet ok source labels) : Inv target := by
  induction labels generalizing source with
  | nil =>
      cases run
      exact start
  | cons label labels ih =>
      obtain ⟨middle, step, rest⟩ := Option.bind_eq_some_iff.mp run
      obtain ⟨here, later⟩ := meet middle step
      exact ih (.step reachable step trivial) (preserve reachable start step here) rest later

/-- What every step keeps of the state before it is kept by the whole run. -/
theorem rel_of_exec {system : System S L} {ok : StepCondition S L} (rel : S → S → Prop)
    (refl : ∀ state, rel state state)
    (trans : ∀ {first second third}, rel first second → rel second third → rel first third)
    (keeps : ∀ {source label target}, system.ReachableVia ok source →
      system.step source label = some target → rel source target)
    {source target : S} {labels : List L} (reachable : system.ReachableVia ok source)
    (run : system.exec source labels = some target)
    (meet : system.StepsMeet ok source labels) : rel source target := by
  induction labels generalizing source with
  | nil =>
      cases run
      exact refl _
  | cons label labels ih =>
      obtain ⟨middle, step, rest⟩ := Option.bind_eq_some_iff.mp run
      obtain ⟨here, later⟩ := meet middle step
      exact trans (keeps reachable step) (ih (reachable.step step here) rest later)

/-- A value that no step lowers while a growing count is below a bound is not lowered
by a run that stays below it. -/
theorem le_of_exec {α : Type w} [LE α] [Std.IsPreorder α] {system : System S L}
    {ok : StepCondition S L} (count : S → Nat) (bound : Nat) (value : S → α)
    (counts : ∀ {source label target}, system.step source label = some target →
      count source ≤ count target)
    (grows : ∀ {source label target}, system.ReachableVia ok source → count source < bound →
      system.step source label = some target → value source ≤ value target)
    {source target : S} {labels : List L} (reachable : system.ReachableVia ok source)
    (run : system.exec source labels = some target)
    (meet : system.StepsMeet ok source labels) (below : count target < bound) :
    value source ≤ value target := by
  have keeps : count source ≤ count target ∧
      (count target < bound → value source ≤ value target) := by
    refine rel_of_exec (fun source target => count source ≤ count target ∧
      (count target < bound → value source ≤ value target)) ?_ ?_ ?_ reachable run meet
    · exact fun _ => ⟨Nat.le_refl _, fun _ => Std.le_refl _⟩
    · rintro first second third ⟨early, low⟩ ⟨late, high⟩
      refine ⟨Nat.le_trans early late, fun below => ?_⟩
      exact Std.le_trans (low (Nat.lt_of_le_of_lt late below)) (high below)
    · intro source label target before step
      refine ⟨counts step, fun below => ?_⟩
      exact grows before (Nat.lt_of_le_of_lt (counts step) below) step
  exact keeps.2 below

/-- If the first step that breaks the condition always leads out of the property, a
run that stays in the property meets the condition. -/
theorem stepsMeet_of_statesMeet {system : System S L} {ok : StepCondition S L}
    {good : S → Prop} (escape : ∀ {source label target}, system.ReachableVia ok source →
      system.step source label = some target → ¬ ok source label target → ¬ good target)
    {source : S} (reachable : system.ReachableVia ok source) {labels : List L}
    (visits : system.StatesMeet good source labels) : system.StepsMeet ok source labels := by
  induction labels generalizing source with
  | nil => trivial
  | cons label labels ih =>
      intro next step
      have later := visits.2 next step
      have here : good next := by
        cases labels with
        | nil => exact later
        | cons _ _ => exact later.1
      have meets : ok source label next :=
        by_contra fun broken => escape reachable step broken here
      exact ⟨meets, ih (reachable.step step meets) later⟩

/-- A property that the steps of a run keep holds in all its states. -/
theorem statesMeet_of_stepsMeet {system : System S L} {ok : StepCondition S L} {good : S → Prop}
    (preserve : ∀ {source label target}, good source → system.step source label = some target →
      ok source label target → good target)
    {source : S} (start : good source) {labels : List L}
    (meet : system.StepsMeet ok source labels) : system.StatesMeet good source labels := by
  induction labels generalizing source with
  | nil => exact start
  | cons label labels ih =>
      refine ⟨start, fun next step => ?_⟩
      obtain ⟨here, later⟩ := meet next step
      exact ih (preserve start step here) later

/-- Conditions that agree wherever an invariant holds are met by the same runs. -/
theorem stepsMeet_iff {system : System S L} {first second : StepCondition S L} (Inv : S → Prop)
    (preserve : ∀ {source target label}, system.step source label = some target → Inv source →
      Inv target)
    (agree : ∀ {source label target}, Inv source → system.step source label = some target →
      (first source label target ↔ second source label target))
    {source : S} (inv : Inv source) (labels : List L) :
    system.StepsMeet first source labels ↔ system.StepsMeet second source labels := by
  induction labels generalizing source with
  | nil => exact Iff.rfl
  | cons label labels ih =>
      refine forall_congr' fun next => imp_congr_right fun step => ?_
      exact and_congr (agree inv step) (ih (preserve step inv))

/-- A condition that every step from an invariant meets is met by every run from it. -/
theorem stepsMeet_of_inv {system : System S L} {ok : StepCondition S L} (Inv : S → Prop)
    (meets : ∀ {source label target}, Inv source → system.step source label = some target →
      ok source label target ∧ Inv target)
    {source : S} (inv : Inv source) (labels : List L) : system.StepsMeet ok source labels := by
  induction labels generalizing source with
  | nil => trivial
  | cons label labels ih =>
      intro next step
      obtain ⟨here, later⟩ := meets inv step
      exact ⟨here, ih later⟩

/-! ## Concrete runs -/

/-! Concrete runs have at most four parties, numbered by `Fin`. -/

instance neZeroOne : NeZero 1 := ⟨by decide⟩

instance neZeroTwo : NeZero 2 := ⟨by decide⟩

instance neZeroThree : NeZero 3 := ⟨by decide⟩

instance neZeroFour : NeZero 4 := ⟨by decide⟩

/-- The state at the end of a run that is known to go through. -/
def finish (system : System S L) (start : S) (labels : List L)
    (runs : (system.exec start labels).isSome = true) : S :=
  (system.exec start labels).get runs

theorem exec_eq_finish (system : System S L) (start : S) (labels : List L)
    (runs : (system.exec start labels).isSome = true) :
    system.exec start labels = some (system.finish start labels runs) :=
  (Option.some_get runs).symm

theorem reachableVia_finish {system : System S L} {ok : StepCondition S L} {start : S}
    {labels : List L} (initial : system.initial start)
    (runs : (system.exec start labels).isSome = true)
    (meet : system.StepsMeet ok start labels) :
    system.ReachableVia ok (system.finish start labels runs) :=
  (ReachableVia.initial initial).exec (system.exec_eq_finish start labels runs) meet

theorem reachable_finish {system : System S L} {start : S} {labels : List L}
    (initial : system.initial start) (runs : (system.exec start labels).isSome = true) :
    system.Reachable (system.finish start labels runs) :=
  Reachable.exec (.initial initial) (system.exec_eq_finish start labels runs)

end System

end RsIpc.Transition
