import RsIpc.Transition.Core

/-!
# Clients of a system

A client keeps a state of its own beside that of a system.  Each of its steps
changes its own state and takes at most one step of the system, so what holds of
all runs of the system holds of the runs that the client makes of it.
-/

namespace RsIpc.Transition

universe u v w x

/-- A state of a system and a state of its client. -/
structure Joint (S : Type u) (E : Type w) where
  core : S
  own : E

/-- What a client does: the step of the system that it takes, if any, and its own
state after it. -/
abbrev Client (S : Type u) (L : Type v) (E : Type w) (K : Type x) :=
  S → E → K → Option (Option L × E)

namespace System

variable {S : Type u} {L : Type v} {E : Type w} {K : Type x}

/-- The system as its client runs it. -/
def joint (core : System S L) (client : Client S L E K) (start : E) : System (Joint S E) K where
  initial state := core.initial state.core ∧ state.own = start
  step state choice :=
    (client state.core state.own choice).bind fun move =>
      match move.1 with
      | none => some ⟨state.core, move.2⟩
      | some label => (core.step state.core label).map fun target => ⟨target, move.2⟩

variable {core : System S L} {client : Client S L E K} {start : E}

/-- A step of the client takes one step of the system or none. -/
theorem joint_step {source target : Joint S E} {choice : K}
    (step : (core.joint client start).step source choice = some target) :
    client source.core source.own choice = some (none, target.own) ∧ target.core = source.core ∨
      ∃ label, client source.core source.own choice = some (some label, target.own) ∧
        core.step source.core label = some target.core := by
  obtain ⟨⟨taken, own⟩, moves, rest⟩ := Option.bind_eq_some_iff.mp step
  cases taken with
  | none =>
      cases rest
      exact .inl ⟨moves, rfl⟩
  | some label =>
      obtain ⟨next, steps, rfl⟩ := Option.map_eq_some_iff.mp rest
      exact .inr ⟨label, moves, steps⟩

/-- The system takes a step, or stays where it is. -/
def Took (core : System S L) (source : S) : Option L → S → Prop
  | none, target => target = source
  | some label, target => core.step source label = some target

theorem joint_took {source target : Joint S E} {choice : K}
    (step : (core.joint client start).step source choice = some target) :
    ∃ taken, client source.core source.own choice = some (taken, target.own) ∧
      core.Took source.core taken target.core := by
  rcases joint_step step with ⟨moves, same⟩ | ⟨label, moves, steps⟩
  · exact ⟨none, moves, same⟩
  · exact ⟨some label, moves, steps⟩

theorem step_joint {source : Joint S E} {choice : K} {taken : Option L} {own : E} {target : S}
    (moves : client source.core source.own choice = some (taken, own))
    (took : core.Took source.core taken target) :
    (core.joint client start).step source choice = some ⟨target, own⟩ := by
  simp only [joint, moves, Option.bind_some]
  cases taken with
  | none => rw [show target = source.core from took]
  | some label =>
      have stepped : core.step source.core label = some target := took
      simp only [stepped, Option.map_some]

/-- What no step of the system undoes, no step of the client undoes. -/
theorem rel_of_joint_step (rel : S → S → Prop) (refl : ∀ state, rel state state)
    (keeps : ∀ {source target : S} {label : L}, core.step source label = some target →
      rel source target)
    {source target : Joint S E} {choice : K}
    (step : (core.joint client start).step source choice = some target) :
    rel source.core target.core := by
  rcases joint_step step with ⟨_, same⟩ | ⟨label, _, steps⟩
  · rw [same]
    exact refl _
  · exact keeps steps

/-- The client takes the system through a run that meets a condition if its steps
meet it. -/
theorem reachableVia_core {ok : StepCondition (Joint S E) K} {coreOk : StepCondition S L}
    {state : Joint S E} (reachable : (core.joint client start).ReachableVia ok state)
    (transfer : ∀ {source target : Joint S E} {choice label},
      (core.joint client start).ReachableVia ok source → core.ReachableVia coreOk source.core →
      client source.core source.own choice = some (some label, target.own) →
      core.step source.core label = some target.core → ok source choice target →
      coreOk source.core label target.core) :
    core.ReachableVia coreOk state.core := by
  induction reachable with
  | initial start => exact .initial start.1
  | step before step ok ih =>
      rcases joint_step step with ⟨_, same⟩ | ⟨label, moves, steps⟩
      · rw [same]
        exact ih
      · exact ih.step steps (transfer before ih moves steps ok)

/-- The same, from what each step of the client does to the system. -/
theorem reachableVia_core_of_steps {ok : StepCondition (Joint S E) K} {coreOk : StepCondition S L}
    {state : Joint S E} (reachable : (core.joint client start).ReachableVia ok state)
    (steps : ∀ {source target : Joint S E} {choice}, (core.joint client start).ReachableVia ok source →
      (core.joint client start).step source choice = some target → ok source choice target →
      target.core = source.core ∨ ∃ label, core.step source.core label = some target.core ∧
        coreOk source.core label target.core) :
    core.ReachableVia coreOk state.core := by
  induction reachable with
  | initial start => exact .initial start.1
  | step before step ok ih =>
      rcases steps before step ok with same | ⟨label, taken, meets⟩
      · rw [same]
        exact ih
      · exact ih.step taken meets

/-- The condition holds of the step of the system that the client takes, if any. -/
def OnCore (client : Client S L E K) (ok : StepCondition S L) : StepCondition (Joint S E) K :=
  fun source choice target => ∀ move ∈ client source.core source.own choice,
    ∀ label ∈ move.1, ok source.core label target.core

instance {ok : StepCondition S L} [∀ source label target, Decidable (ok source label target)]
    (source : Joint S E) (choice : K) (target : Joint S E) :
    Decidable (OnCore client ok source choice target) :=
  have (move : Option L × E) : Decidable (∀ label ∈ move.1, ok source.core label target.core) :=
    Option.decidableForallMem _
  Option.decidableForallMem _

theorem reachableVia_core_of_onCore {ok : StepCondition (Joint S E) K} {coreOk : StepCondition S L}
    (meets : ∀ {source choice target}, ok source choice target →
      OnCore client coreOk source choice target)
    {state : Joint S E} (reachable : (core.joint client start).ReachableVia ok state) :
    core.ReachableVia coreOk state.core :=
  reachableVia_core reachable fun _ _ moves _ holds => meets holds _ moves _ rfl

/-- The client is held up only by the system. -/
theorem step_eq_none_of_joint {source : Joint S E} {choice : K}
    (none : (core.joint client start).step source choice = none) {taken : Option L} {own : E}
    (moves : client source.core source.own choice = some (taken, own)) :
    ∃ label, taken = some label ∧ core.step source.core label = Option.none := by
  have blocked : ((client source.core source.own choice).bind fun move =>
      match move.1 with
      | Option.none => some ⟨source.core, move.2⟩
      | some label => (core.step source.core label).map fun target =>
          (⟨target, move.2⟩ : Joint S E)) = Option.none := none
  rw [moves] at blocked
  cases taken with
  | none => cases blocked
  | some label => exact ⟨label, rfl, Option.map_eq_none_iff.mp blocked⟩

theorem reachable_core {ok : StepCondition (Joint S E) K} {state : Joint S E}
    (reachable : (core.joint client start).ReachableVia ok state) : core.Reachable state.core :=
  reachableVia_core reachable fun _ _ _ _ _ => trivial

end System

end RsIpc.Transition
