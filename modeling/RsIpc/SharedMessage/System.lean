import RsIpc.SharedMessage.Program
import RsIpc.Transition.Core

/-!
# All parties together

A global state holds the words, the point of every party, and the history of
the run so far.  A step is one operation of one party; the parties are indexed
by an arbitrary type, so a run interleaves any number of them.  The history is
written by the steps and read by none of them.
-/

namespace RsIpc

open Transition

universe u v

/-- Resume a party that is parked on the given condition variable. -/
def Pc.wakeOn (which : Condvar) : Pc → Pc
  | .parked site ticket => if site.condvar = which then site.resume else .parked site ticket
  | pc => pc

/-- What an operation does to the parties that did not take it. -/
def Pc.after (pc : Pc) : Effect → Pc
  | .wake which => pc.wakeOn which
  | _ => pc

/-- Whatever waiting does not change survives the steps of other parties. -/
theorem Pc.after_eq {α : Type v} (view : Pc → α)
    (resume : ∀ site ticket, view site.resume = view (.parked site ticket))
    (pc : Pc) (effect : Effect) : view (pc.after effect) = view pc := by
  cases effect with
  | wake which =>
      cases pc with
      | parked site ticket =>
          simp only [Pc.after, Pc.wakeOn]
          split
          · exact resume site ticket
          · rfl
      | _ => rfl
  | _ => rfl

/-- A party with a view that waking would take away has not been woken. -/
theorem Pc.after_self {α : Type v} (view : Pc → Option α)
    (resume : ∀ site : WaitSite, view site.resume = none) {pc : Pc} {effect : Effect} {value : α}
    (holds : view (pc.after effect) = some value) :
    pc.after effect = pc := by
  cases effect with
  | wake which =>
      cases pc with
      | parked site ticket =>
          simp only [Pc.after, Pc.wakeOn] at holds ⊢
          split
          · rename_i woken
            rw [if_pos woken, resume] at holds
            cases holds
          · rfl
      | _ => rfl
  | _ => rfl

structure State (ι : Type u) where
  msg : SharedMessage
  pc : ι → Pc
  log : List (ι × Event)

/-- The freshly mapped struct: zeroed memory, except that the target and the
number of registered readers may have been set before the run. -/
def SharedMessage.fresh (capacity : Nat) (targetRead consumers : BitVec 16) : SharedMessage where
  sequenceAndFlags := 0
  dataSize := 0
  readersState := ReadersStateCount.toPacked ⟨targetRead, consumers, 0, 0⟩
  writerMutex := false
  writerCondvar := ⟨0⟩
  readerDoneCondvar := ⟨0⟩
  data := List.replicate capacity 0

namespace State

variable {ι : Type u} [DecidableEq ι]

omit [DecidableEq ι] in
/-- Every party idle over fresh memory. -/
def fresh (ι : Type u) (capacity : Nat) (targetRead consumers : BitVec 16) : State ι where
  msg := SharedMessage.fresh capacity targetRead consumers
  pc _ := .idle
  log := []

omit [DecidableEq ι] in
@[simp]
theorem fresh_pc (capacity : Nat) (targetRead consumers : BitVec 16) (party : ι) :
    (fresh ι capacity targetRead consumers).pc party = .idle :=
  rfl

omit [DecidableEq ι] in
@[simp]
theorem fresh_log (capacity : Nat) (targetRead consumers : BitVec 16) :
    (fresh ι capacity targetRead consumers).log = [] :=
  rfl

omit [DecidableEq ι] in
@[simp]
theorem fresh_getSequenceState (capacity : Nat) (targetRead consumers : BitVec 16) :
    (fresh ι capacity targetRead consumers).msg.getSequenceState = ⟨0, false, false⟩ := by
  change SequenceState.ofPacked 0 = _
  decide

omit [DecidableEq ι] in
@[simp]
theorem fresh_getReaderState (capacity : Nat) (targetRead consumers : BitVec 16) :
    (fresh ι capacity targetRead consumers).msg.getReaderState = ⟨targetRead, consumers, 0, 0⟩ :=
  ReadersStateCount.ofPacked_toPacked _

/-- The state after `party` has performed `act`. -/
def perform (state : State ι) (party : ι) (act : Act) : State ι where
  msg := act.effect.apply state.msg
  pc other := if other = party then act.pc else (state.pc other).after act.effect
  log := state.log ++ (act.event.toList.map fun event => (party, event))

/-- One step of one party. -/
def step (state : State ι) (label : ι × Choice) : Option (State ι) :=
  (next state.msg label.2 (state.pc label.1)).map (state.perform label.1)

theorem step_eq_some_iff {source target : State ι} {party : ι} {choice : Choice} :
    source.step (party, choice) = some target ↔
      ∃ act, next source.msg choice (source.pc party) = some act ∧
        target = source.perform party act := by
  rw [step, Option.map_eq_some_iff]
  simp only [eq_comm]

@[simp]
theorem perform_msg (state : State ι) (party : ι) (act : Act) :
    (state.perform party act).msg = act.effect.apply state.msg :=
  rfl

@[simp]
theorem perform_pc_self (state : State ι) (party : ι) (act : Act) :
    (state.perform party act).pc party = act.pc := by
  simp [perform]

theorem perform_pc_of_ne (state : State ι) {party other : ι} (ne : other ≠ party) (act : Act) :
    (state.perform party act).pc other = (state.pc other).after act.effect := by
  simp [perform, ne]

/-- A view that waiting does not change, after a step of a party. -/
theorem view_perform {α : Type v} (view : Pc → α)
    (resume : ∀ site ticket, view site.resume = view (.parked site ticket))
    (state : State ι) (party other : ι) (act : Act) :
    view ((state.perform party act).pc other) =
      if other = party then view act.pc else view (state.pc other) := by
  by_cases here : other = party
  · subst here
    rw [perform_pc_self, if_pos rfl]
  · rw [perform_pc_of_ne state here, Pc.after_eq view resume, if_neg here]

/-- A view that waiting does not change is kept by the steps of other parties. -/
theorem view_of_step {α : Type v} (view : Pc → α)
    (resume : ∀ site ticket, view site.resume = view (.parked site ticket))
    {source target : State ι} {party other : ι} {choice : Choice}
    (step : source.step (party, choice) = some target) (ne : other ≠ party) :
    view (target.pc other) = view (source.pc other) := by
  obtain ⟨act, _, rfl⟩ := step_eq_some_iff.mp step
  rw [view_perform view resume, if_neg ne]

@[simp]
theorem perform_log (state : State ι) (party : ι) (act : Act) :
    (state.perform party act).log =
      state.log ++ (act.event.toList.map fun event => (party, event)) :=
  rfl

/-- A step that changes no word leaves the next one as it was. -/
theorem perform_goto (state : State ι) (party : ι) (pc : Pc) (act : Act) :
    (state.perform party (.goto pc)).perform party act = state.perform party act := by
  have points : ((state.perform party (.goto pc)).perform party act).pc =
      (state.perform party act).pc := by
    funext other
    by_cases here : other = party
    · rw [here, State.perform_pc_self, State.perform_pc_self]
    · rw [State.perform_pc_of_ne _ here, State.perform_pc_of_ne _ here,
        State.perform_pc_of_ne _ here]
      rfl
  have history : ((state.perform party (.goto pc)).perform party act).log =
      (state.perform party act).log := by
    simp
  rw [State.mk.injEq]
  exact ⟨rfl, points, history⟩

end State

/-- The parties `ι` over memory with a target and a number of registered readers. -/
def system (ι : Type u) [DecidableEq ι] (targetRead consumers : BitVec 16) :
    System (State ι) (ι × Choice) where
  initial state := ∃ capacity, state = State.fresh ι capacity targetRead consumers
  step := State.step

/-- The parties `ι` over zeroed memory. -/
abbrev zeroed (ι : Type u) [DecidableEq ι] : System (State ι) (ι × Choice) :=
  system ι 0 0

theorem initial_fresh (ι : Type u) [DecidableEq ι] (capacity : Nat)
    (targetRead consumers : BitVec 16) :
    (system ι targetRead consumers).initial (State.fresh ι capacity targetRead consumers) :=
  ⟨capacity, rfl⟩

/-- A party takes the given number of steps without a choice. -/
def advances {ι : Type u} (party : ι) (count : Nat) : List (ι × Choice) :=
  List.replicate count (party, .go)

/-- A party calls an operation and takes the given number of steps in it. -/
def calls {ι : Type u} (party : ι) (operation : Operation) (count : Nat) : List (ι × Choice) :=
  (party, .invoke operation) :: advances party count

/-! ## One party alone -/

section Alone

variable {ι : Type u} [DecidableEq ι]

/-- The party can take the system from one state to the other by its own steps. -/
def Alone (party : ι) (source target : State ι) : Prop :=
  ∃ choices : List Choice,
    (zeroed ι).exec source (choices.map fun choice => (party, choice)) = some target

theorem Alone.refl (party : ι) (state : State ι) : Alone party state state :=
  ⟨[], rfl⟩

theorem Alone.step {party : ι} {source target : State ι} {choice : Choice} {act : Act}
    (taken : next source.msg choice (source.pc party) = some act)
    (rest : Alone party (source.perform party act) target) : Alone party source target := by
  obtain ⟨choices, run⟩ := rest
  refine ⟨choice :: choices, ?_⟩
  have step : (zeroed ι).step source (party, choice) = some (source.perform party act) :=
    State.step_eq_some_iff.mpr ⟨act, taken, rfl⟩
  rw [List.map_cons, System.exec_cons, step]
  exact run

theorem Alone.trans {party : ι} {source middle target : State ι} (first : Alone party source middle)
    (second : Alone party middle target) : Alone party source target := by
  obtain ⟨early, firstRun⟩ := first
  obtain ⟨late, secondRun⟩ := second
  exact ⟨early ++ late, by rw [List.map_append]; exact System.exec_append firstRun secondRun⟩

/-- What a party does alone goes on from any reachable state. -/
theorem Alone.reachable {party : ι} {source target : State ι} {targetRead consumers : BitVec 16}
    (alone : Alone party source target)
    (reachable : (system ι targetRead consumers).Reachable source) :
    (system ι targetRead consumers).Reachable target := by
  obtain ⟨choices, run⟩ := alone
  induction choices generalizing source with
  | nil =>
      cases run
      exact reachable
  | cons choice choices ih =>
      obtain ⟨next, step, rest⟩ := Option.bind_eq_some_iff.mp run
      exact ih (.step reachable step trivial) rest

/-- The party takes a step that it may choose at its point. -/
theorem Alone.choose {party : ι} {state : State ι} {pc : Pc} (choice : Choice) {act : Act}
    {good : State ι → Prop} (here : state.pc party = pc)
    (taken : next state.msg choice pc = some act)
    (rest : (state.perform party act).pc party = act.pc →
      ∃ target, Alone party (state.perform party act) target ∧ good target) :
    ∃ target, Alone party state target ∧ good target := by
  obtain ⟨target, run, holds⟩ := rest (State.perform_pc_self state party act)
  exact ⟨target, Alone.step (here ▸ taken) run, holds⟩

/-- The party takes the step that the program has at its point. -/
theorem Alone.advance {party : ι} {state : State ι} {pc : Pc} {act : Act} {good : State ι → Prop}
    (here : state.pc party = pc) (taken : RsIpc.advance state.msg pc = some act)
    (rest : (state.perform party act).pc party = act.pc →
      ∃ target, Alone party (state.perform party act) target ∧ good target) :
    ∃ target, Alone party state target ∧ good target :=
  Alone.choose .go here taken rest

end Alone

end RsIpc
