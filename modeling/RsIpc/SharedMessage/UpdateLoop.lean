import RsIpc.Protocol.AtomicObject
import RsIpc.SharedMessage.Program
import RsIpc.Transition.Core

/-!
# The loop of `update_reader_state`

The loop loads the readers word, runs the closure on the unpacked counters and
tries to exchange the result for the word it was computed from.  Here any number
of parties call it with arbitrary closures.  A call takes effect at its exchange,
or, where the closure changes nothing or panics, at the load it was run on.
-/

namespace RsIpc.UpdateLoop

open Protocol.AtomicObject Transition

universe u

/-- A closure passed to `update_reader_state`; `none` is a panic. -/
abbrev Closure := ReadersStateCount → Option ReadersStateCount

/-- The points of the loop, with the number and the closure of the call. -/
inductive Pc
  | idle
  | load (id : Nat) (mutator : Closure)
  | exchange (id : Nat) (mutator : Closure) (packed : BitVec 64)
  | done (id : Nat) (mutator : Closure) (policy : Option ReadersStateCount)

/-- `spurious` is a spurious failure of `compare_exchange_weak`. -/
inductive Choice
  | call (mutator : Closure)
  | go
  | spurious

/-- The loop body up to the exchange, on the value just read. -/
def attempt (id : Nat) (mutator : Closure) (packed : BitVec 64) : Pc :=
  match mutator (.ofPacked packed) with
  | none => .done id mutator none
  | some policy =>
      if policy.toPacked = packed then .done id mutator (some policy)
      else .exchange id mutator packed

/-- `compare_exchange_weak`: the word and the point after it. -/
def exchange (word : BitVec 64) (id : Nat) (mutator : Closure) (packed : BitVec 64)
    (spurious : Bool) : BitVec 64 × Pc :=
  if spurious = false ∧ word = packed then
    match mutator (.ofPacked packed) with
    | none => (word, .done id mutator none)
    | some policy => (policy.toPacked, .done id mutator (some policy))
  else (word, attempt id mutator word)

/-- One step at a point, with the number of the next call. -/
def next (word : BitVec 64) (calls : Nat) : Choice → Pc → Option (BitVec 64 × Pc)
  | .call mutator, .idle => some (word, .load calls mutator)
  | .go, .load id mutator => some (word, attempt id mutator word)
  | .go, .exchange id mutator packed => some (exchange word id mutator packed false)
  | .spurious, .exchange id mutator packed => some (exchange word id mutator packed true)
  | .go, .done _ _ _ => some (word, .idle)
  | _, _ => none

/-- An entry of the history of the calls. -/
abbrev Entry := Protocol.AtomicObject.Event Closure (Option ReadersStateCount)

/-- What the history records of a step: calls, the ends of loops, returns. -/
def recorded : Pc → Pc → List Entry
  | .idle, .load id mutator => [.invoked id mutator]
  | .load _ _, .done id mutator policy | .exchange _ _ _, .done id mutator policy =>
      [.applied id mutator policy]
  | .done id _ policy, .idle => [.returned id policy]
  | _, _ => []

structure State (ι : Type u) where
  word : BitVec 64
  pc : ι → Pc
  calls : Nat
  log : List Entry

variable {ι : Type u} [DecidableEq ι]

/-- How many calls have been made when a party gets to the point. -/
def Pc.callsAfter (calls : Nat) : Pc → Nat
  | .load _ _ => calls + 1
  | _ => calls

/-- The state after a party has stored a word and moved. -/
def State.move (state : State ι) (party : ι) (word : BitVec 64) (pc : Pc) : State ι where
  word := word
  pc other := if other = party then pc else state.pc other
  calls := pc.callsAfter state.calls
  log := state.log ++ recorded (state.pc party) pc

@[simp]
theorem State.move_pc_self (state : State ι) (party : ι) (word : BitVec 64) (pc : Pc) :
    (state.move party word pc).pc party = pc :=
  if_pos rfl

def step (state : State ι) (label : ι × Choice) : Option (State ι) :=
  (next state.word state.calls label.2 (state.pc label.1)).map fun taken =>
    state.move label.1 taken.1 taken.2

/-- Any number of parties update one readers word. -/
def updates (ι : Type u) [DecidableEq ι] (word : BitVec 64) : System (State ι) (ι × Choice) where
  initial state := state = ⟨word, fun _ => .idle, 0, []⟩
  step := step

/-! ## The counters as an atomic object -/

/-- The counters after the closure, and what it returned; a panic leaves them. -/
def spec : Spec Closure (Option ReadersStateCount) ReadersStateCount :=
  fun mutator state => (mutator state, (mutator state).getD state)

def Pc.status : Pc → Status Closure (Option ReadersStateCount)
  | .idle => .idle
  | .load id mutator | .exchange id mutator _ => .pending id mutator
  | .done id mutator policy => .finished id mutator policy

/-- The counters, the calls in progress and the history. -/
def State.config (state : State ι) :
    Config ι Closure (Option ReadersStateCount) ReadersStateCount where
  now := .ofPacked state.word
  status party := (state.pc party).status
  calls := state.calls
  log := state.log

theorem spec_of_run {mutator : Closure} {state policy : ReadersStateCount}
    (run : mutator state = some policy) : spec mutator state = (some policy, policy) := by
  rw [spec, run]
  rfl

theorem spec_of_panic {mutator : Closure} {state : ReadersStateCount} (panic : mutator state = none) :
    spec mutator state = (none, state) := by
  rw [spec, panic]
  rfl

/-- A call that ends has taken effect with what it will return. -/
theorem change_done {mutator : Closure} {now now' : ReadersStateCount}
    {policy : Option ReadersStateCount} (taken : spec mutator now = (policy, now')) (calls id : Nat) :
    Protocol.AtomicObject.Change spec now calls (.pending id mutator) now' calls
      [.applied id mutator policy] (.finished id mutator policy) := by
  have applied : Protocol.AtomicObject.Change spec now calls (.pending id mutator)
      (spec mutator now).2 calls [.applied id mutator (spec mutator now).1]
      (.finished id mutator (spec mutator now).1) := .apply id mutator
  rw [taken] at applied
  exact applied

/-- The loop body ends the call, or goes on to the exchange. -/
theorem attempt_change (id : Nat) (mutator : Closure) (word : BitVec 64) (calls : Nat) {pc : Pc}
    (ends : ∀ policy, recorded pc (.done id mutator policy) = [.applied id mutator policy])
    (goes : recorded pc (.exchange id mutator word) = []) :
    Protocol.AtomicObject.Change spec (.ofPacked word) calls (.pending id mutator) (.ofPacked word)
      ((attempt id mutator word).callsAfter calls) (recorded pc (attempt id mutator word))
      (attempt id mutator word).status := by
  unfold attempt
  split
  · rename_i panic
    rw [ends]
    exact change_done (spec_of_panic panic) calls id
  · rename_i policy run
    split
    · rename_i same
      have kept : policy = .ofPacked word := by
        rw [← same, ReadersStateCount.ofPacked_toPacked]
      rw [ends]
      exact change_done ((spec_of_run run).trans (by rw [kept])) calls id
    · rw [goes]
      exact .stay _

theorem exchange_change (word : BitVec 64) (id : Nat) (mutator : Closure) (packed : BitVec 64)
    (spurious : Bool) (calls : Nat) :
    Protocol.AtomicObject.Change spec (.ofPacked word) calls (.pending id mutator)
      (.ofPacked (exchange word id mutator packed spurious).1)
      ((exchange word id mutator packed spurious).2.callsAfter calls)
      (recorded (.exchange id mutator packed) (exchange word id mutator packed spurious).2)
      (exchange word id mutator packed spurious).2.status := by
  unfold exchange
  split
  · rename_i found
    obtain ⟨_, rfl⟩ := found
    split
    · rename_i panic
      exact change_done (spec_of_panic panic) calls id
    · rename_i policy run
      rw [ReadersStateCount.ofPacked_toPacked]
      exact change_done (spec_of_run run) calls id
  · exact attempt_change id mutator word calls (fun _ => rfl) rfl

/-- A step of the loop is a step of the object. -/
theorem next_change {word : BitVec 64} {calls : Nat} {choice : Choice} {pc : Pc}
    {taken : BitVec 64 × Pc} (step : next word calls choice pc = some taken) :
    Protocol.AtomicObject.Change spec (.ofPacked word) calls pc.status (.ofPacked taken.1)
      (taken.2.callsAfter calls) (recorded pc taken.2) taken.2.status := by
  cases pc with
  | idle =>
      cases choice <;> cases step
      exact .invoke _
  | load id mutator =>
      cases choice <;> cases step
      exact attempt_change id mutator word calls (fun _ => rfl) rfl
  | exchange id mutator packed =>
      cases choice <;> cases step <;> exact exchange_change word id mutator packed _ calls
  | done id mutator policy =>
      cases choice <;> cases step
      exact .respond id mutator policy

theorem config_step {source target : State ι} {party : ι} {choice : Choice}
    (taken : step source (party, choice) = some target) :
    Protocol.AtomicObject.Step spec party source.config target.config := by
  obtain ⟨next, advances, rfl⟩ := Option.map_eq_some_iff.mp taken
  constructor
  · refine ⟨recorded (source.pc party) next.2, rfl, ?_⟩
    have status : ((source.move party next.1 next.2).pc party).status = next.2.status :=
      congrArg Pc.status (source.move_pc_self party next.1 next.2)
    have change := next_change advances
    rw [← status] at change
    exact change
  · intro other ne
    exact congrArg Pc.status (if_neg ne)

theorem orderly_of_reachable {word : BitVec 64} {state : State ι}
    (reachable : (updates ι word).Reachable state) :
    Orderly spec (.ofPacked word) state.config := by
  refine reachable.invariant (fun state => Orderly spec (.ofPacked word) state.config) ?_ ?_
  · rintro _ rfl
    exact Orderly.start spec (.ofPacked word) 0
  · rintro source ⟨party, choice⟩ target _ orderly step _
    exact orderly.step (config_step step)

/-! ## The word -/

/-- The closure of the call that a party is in. -/
def Pc.mutator : Pc → Option Closure
  | .idle => none
  | .load _ mutator | .exchange _ mutator _ | .done _ mutator _ => some mutator

/-- A step leaves the word alone, or ends a call whose closure gave the new word. -/
theorem next_word {word : BitVec 64} {calls : Nat} {choice : Choice} {pc : Pc}
    {taken : BitVec 64 × Pc} (step : next word calls choice pc = some taken) :
    taken.1 = word ∨ ∃ id mutator policy, pc.mutator = some mutator ∧
      mutator (.ofPacked word) = some policy ∧ taken = (policy.toPacked, .done id mutator (some policy)) := by
  cases pc with
  | exchange id mutator packed =>
      have exchanges : ∀ spurious, (exchange word id mutator packed spurious).1 = word ∨
          ∃ policy, mutator (.ofPacked word) = some policy ∧
            exchange word id mutator packed spurious =
              (policy.toPacked, .done id mutator (some policy)) := by
        intro spurious
        unfold exchange
        split
        · rename_i found
          obtain ⟨_, rfl⟩ := found
          cases run : mutator (.ofPacked word) with
          | none => exact .inl rfl
          | some policy => exact .inr ⟨policy, rfl, rfl⟩
        · exact .inl rfl
      cases choice with
      | call mutator => cases step
      | go | spurious =>
          cases step
          rcases exchanges _ with same | ⟨policy, run, is⟩
          · exact .inl same
          · exact .inr ⟨id, mutator, policy, rfl, run, is⟩
  | idle | load id mutator | done id mutator policy =>
      left
      cases choice <;> cases step
      rfl

/-- Concurrent updates are atomic and none is lost.  The calls that have taken effect,
in the order in which they did, explain the word, what every call returns, and the
history of calls and returns.  A step keeps whatever the closure of its call leaves
alone; a call that does not end with new counters, so one that panics, never
changes the word; and packing and unpacking are inverse. -/
theorem updates_are_atomic {word : BitVec 64} {state : State ι}
    (reachable : (updates ι word).Reachable state) :
    Linearizes spec (.ofPacked word) state.log (.ofPacked state.word) ∧
    (∀ label target mutator, step state label = some target →
      (state.pc label.1).mutator = some mutator →
      ∀ view : ReadersStateCount → BitVec 16,
        (∀ before after, mutator before = some after → view after = view before) →
        view (.ofPacked target.word) = view (.ofPacked state.word)) ∧
    (∀ label target, step state label = some target →
      (∀ id mutator policy, target.pc label.1 ≠ .done id mutator (some policy)) →
      target.word = state.word) ∧
    (∀ packed, (ReadersStateCount.ofPacked packed).toPacked = packed) ∧
    ∀ counters : ReadersStateCount, .ofPacked counters.toPacked = counters := by
  refine ⟨(orderly_of_reachable reachable).toLinearizes, ?_, ?_,
    ReadersStateCount.toPacked_ofPacked, ReadersStateCount.ofPacked_toPacked⟩
  · intro label target mutator step calling view keeps
    obtain ⟨taken, advances, rfl⟩ := Option.map_eq_some_iff.mp step
    rcases next_word advances with same | ⟨id, other, policy, other_, run, is⟩
    · exact congrArg (fun word => view (.ofPacked word)) same
    · rw [calling] at other_
      cases other_
      have stored : (state.move label.1 taken.1 taken.2).word = policy.toPacked :=
        congrArg Prod.fst is
      rw [stored, ReadersStateCount.ofPacked_toPacked]
      exact keeps _ policy run
  · intro label target step panics
    obtain ⟨taken, advances, rfl⟩ := Option.map_eq_some_iff.mp step
    rcases next_word advances with same | ⟨id, mutator, policy, _, _, is⟩
    · exact same
    · refine absurd ?_ (panics id mutator policy)
      rw [State.move_pc_self, is]

/-- One party registers a reader on an empty word. -/
def registering : State (Fin 1) :=
  (updates (Fin 1) 0).finish ⟨0, fun _ => .idle, 0, []⟩
    [(0, .call fun state => some { state with consumers := state.consumers + 1 }), (0, .go),
      (0, .go)] (by decide +kernel)

theorem registering_is_atomic :
    registering.word = 65536 ∧
      Linearizes spec (.ofPacked 0) registering.log (.ofPacked registering.word) :=
  ⟨by decide +kernel, (updates_are_atomic (System.reachable_finish rfl _)).1⟩

/-! ## The loop in the program -/

/-- The program runs this loop body, with the closure of the call site. -/
theorem attempt_eq (site : UpdateSite) (packed : BitVec 64) (id : Nat) :
    RsIpc.attempt site packed =
      match attempt id site.mutator.run packed with
      | .done _ _ none => .goto (.done .panicked)
      | .done _ _ (some policy) => ⟨.observe, site.after policy, site.event⟩
      | _ => .goto (.cas site packed) := by
  unfold RsIpc.attempt attempt
  cases site.mutator.run (.ofPacked packed) with
  | none => rfl
  | some policy =>
      dsimp only
      by_cases same : policy.toPacked = packed
      · rw [if_pos same, if_pos same]
      · rw [if_neg same, if_neg same]

/-- The program's exchange stores what the loop stores. -/
theorem casStep_eq (msg : SharedMessage) (site : UpdateSite) (packed : BitVec 64) (spurious : Bool)
    (id : Nat) :
    ((casStep msg site packed spurious).effect.apply msg).readersState =
      (exchange msg.readersState id site.mutator.run packed spurious).1 := by
  unfold casStep exchange
  split
  · rename_i found
    obtain ⟨_, rfl⟩ := found
    cases run : site.mutator.run (.ofPacked msg.readersState) with
    | none => rfl
    | some policy =>
        have now : site.mutator.run msg.getReaderState = some policy := run
        simp only [Effect.apply, now]
  · unfold RsIpc.attempt
    split
    · rfl
    · split <;> rfl

end RsIpc.UpdateLoop
