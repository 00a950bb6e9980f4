import RsIpc.SharedMessage.Exclusion
import RsIpc.Sync.FutexLock
import RsIpc.Transition.Refinement

/-!
# The message over the futex lock

The program takes and releases `writer_mutex` in one step.  Here `writer_mutex` is the
futex lock: its calls take steps of their own, with spinning, sleeping and waking
between them, and the flag of the message is no longer read.  What holds in every run
over the one-step lock holds in every run over the futex lock.
-/

namespace RsIpc

open Protocol.Handshake Transition

universe u

/-- The point behind `writer_mutex.lock()`. -/
def Pc.afterLock : Pc → Option Pc
  | .lock writer => some (.loadSequence writer)
  | .lockTarget count => some (.update (.setTarget count))
  | _ => none

/-- The party is about to drop the writer guard, or may choose to. -/
def Pc.unlocks : Pc → Bool
  | .unlock _ | .abandon _ | .writeGuard => true
  | _ => false

theorem WaitSite.afterLock_resume (site : WaitSite) (ticket : Nat) :
    site.resume.afterLock = (Pc.parked site ticket).afterLock := by
  cases site <;> rfl

/-- Only a lock or an unlock changes whether a party holds the lock. -/
theorem Move.holds_iff {msg : SharedMessage} {phase phase' : Phase} {effect : Effect}
    (move : Move msg phase effect phase') (noLock : effect ≠ .lock) (noUnlock : effect ≠ .unlock) :
    phase'.Holds ↔ phase.Holds := by
  cases move with
  | observe same is | notify which same is | wake which same is | setStopped same is => rw [same]
  | lock free was is now => exact absurd is noLock
  | abandon was is now | unlock was is now => exact absurd is noUnlock
  | _ =>
      subst_vars
      decide

theorem FutexLock.State.move_self {ι : Type u} [DecidableEq ι] (state : FutexLock.State ι)
    (party : ι) : state.move party state.word (state.pc party) = state := by
  have points : (state.move party state.word (state.pc party)).pc = state.pc := by
    funext other
    by_cases here : other = party
    · rw [here, FutexLock.State.move_pc_self]
    · rw [state.move_pc_of_ne here]
  rw [FutexLock.State.mk.injEq]
  exact ⟨rfl, points⟩

namespace Locked

/-- The message and its lock. -/
structure Whole (ι : Type u) where
  core : State ι
  lock : FutexLock.State ι

/-- A step of the program outside the calls of the lock, or a step of one of these.
A party that swaps the word back says what it does with its guard. -/
inductive Choice (ι : Type u)
  | message (choice : RsIpc.Choice)
  | lock
  | locking (choice : FutexLock.Choice ι)
  | unlock
  | unlocking (choice : RsIpc.Choice)
  deriving DecidableEq

variable {ι : Type u} [DecidableEq ι]

/-- The party goes on once its exchange or swap has taken the lock. -/
def resume (core : State ι) (party : ι) (pc : FutexLock.Pc) : State ι :=
  match (core.pc party).afterLock with
  | some next => if pc = .holding then core.perform party ⟨.lock, next, none⟩ else core
  | none => core

/-- One step of one party. -/
def step [Fintype ι] (state : Whole ι) (label : ι × Choice ι) : Option (Whole ι) :=
  match label.2 with
  | .message choice =>
      if state.lock.pc label.1 = .outside ∨ state.lock.pc label.1 = .holding then
        (next state.core.msg choice (state.core.pc label.1)).bind fun act =>
          if act.effect = .lock ∨ act.effect = .unlock then none
          else some ⟨state.core.perform label.1 act, state.lock⟩
      else none
  | .lock =>
      if (state.core.pc label.1).afterLock.isSome then
        (FutexLock.step state.lock (label.1, .call .lock)).map fun lock => ⟨state.core, lock⟩
      else none
  | .locking choice =>
      if state.lock.pc label.1 = .outside ∨ state.lock.pc label.1 = .holding ∨
          state.lock.pc label.1 = .unlock then none
      else
        (FutexLock.step state.lock (label.1, choice)).map fun lock =>
          ⟨resume state.core label.1 (lock.pc label.1), lock⟩
  | .unlock =>
      if (state.core.pc label.1).unlocks then
        (FutexLock.step state.lock (label.1, .call .unlock)).map fun lock => ⟨state.core, lock⟩
      else none
  | .unlocking choice =>
      if state.lock.pc label.1 = .unlock then
        (next state.core.msg choice (state.core.pc label.1)).bind fun act =>
          if act.effect = .unlock then
            (FutexLock.step state.lock (label.1, .go)).map fun lock =>
              ⟨state.core.perform label.1 act, lock⟩
          else none
      else none

/-- The message with a target and a number of registered readers, and a free lock. -/
def system (ι : Type u) [Fintype ι] [DecidableEq ι] (targetRead consumers : BitVec 16) :
    System (Whole ι) (ι × Choice ι) where
  initial state := (RsIpc.system ι targetRead consumers).initial state.core ∧
    (FutexLock.system ι).initial state.lock
  step := step

/-! ## What the two have in common -/

/-- The flag is the word of the lock, and the holder is the same. -/
structure Agrees (state : Whole ι) : Prop where
  mutex : state.core.msg.writerMutex = decide (state.lock.word ≠ FutexLock.unlocked)
  holds : ∀ party, (state.lock.pc party).Holds ↔ (state.core.pc party).phase.Holds
  inside : ∀ party, state.lock.pc party = .outside ∨ (state.lock.pc party).Holds ∨
    state.lock.pc party = .wake ∨ (state.core.pc party).afterLock.isSome

/-- The step of the message that a step takes, with the point of the lock that it
leads to. -/
def Choice.core (pc : FutexLock.Pc) : Choice ι → Option RsIpc.Choice
  | .message choice | .unlocking choice => some choice
  | .locking _ => if pc = .holding then some .go else none
  | .lock | .unlock => none

/-- What a step does: a step of the message, of the lock, or of both. -/
inductive Goes (source : Whole ι) (party : ι) : Option RsIpc.Choice → Whole ι → Prop
  | message (choice : RsIpc.Choice) (act : Act)
      (taken : next source.core.msg choice (source.core.pc party) = some act)
      (quiet : source.lock.pc party = .outside ∨ source.lock.pc party = .holding)
      (noLock : act.effect ≠ .lock) (noUnlock : act.effect ≠ .unlock) :
      Goes source party (some choice) ⟨source.core.perform party act, source.lock⟩
  | begins (was : source.lock.pc party = .outside)
      (at_ : (source.core.pc party).afterLock.isSome) :
      Goes source party none ⟨source.core, source.lock.move party source.lock.word .lock⟩
  | acquires (next : Pc) (at_ : (source.core.pc party).afterLock = some next)
      (was : ¬ (source.lock.pc party).Holds) (free : source.lock.word = FutexLock.unlocked)
      (word : BitVec 32) (taken : word ≠ FutexLock.unlocked) :
      Goes source party (some .go)
        ⟨source.core.perform party ⟨.lock, next, none⟩, source.lock.move party word .holding⟩
  | waits (at_ : (source.core.pc party).afterLock.isSome) (was : ¬ (source.lock.pc party).Holds)
      (word : BitVec 32) (same : word ≠ FutexLock.unlocked ↔ source.lock.word ≠ FutexLock.unlocked)
      (pc : FutexLock.Pc) (now : ¬ pc.Holds) :
      Goes source party none ⟨source.core, source.lock.move party word pc⟩
  | wakes (sleeper : ι) (was : source.lock.pc party = .wake)
      (asleep : source.lock.pc sleeper = .parked) :
      Goes source party none ⟨source.core,
        (source.lock.move sleeper source.lock.word (.spin true FutexLock.maxSpins)).move party
          source.lock.word .outside⟩
  | nobody (was : source.lock.pc party = .wake) :
      Goes source party none ⟨source.core, source.lock.move party source.lock.word .outside⟩
  | unlock (was : source.lock.pc party = .holding) :
      Goes source party none ⟨source.core, source.lock.move party source.lock.word .unlock⟩
  | releases (choice : RsIpc.Choice) (act : Act)
      (taken : next source.core.msg choice (source.core.pc party) = some act)
      (effect : act.effect = .unlock) (was : source.lock.pc party = .unlock) (pc : FutexLock.Pc)
      (now : pc = .wake ∨ pc = .outside) :
      Goes source party (some choice)
        ⟨source.core.perform party act, source.lock.move party FutexLock.unlocked pc⟩

section Steps

variable [Fintype ι] {source target : Whole ι} {party : ι}

theorem goes_of_locking (agrees : Agrees source) {choice : FutexLock.Choice ι}
    (outside : source.lock.pc party ≠ .outside) (holding : source.lock.pc party ≠ .holding)
    (unlock : source.lock.pc party ≠ .unlock) {lock : FutexLock.State ι}
    (taken : FutexLock.step source.lock (party, choice) = some lock) :
    Goes source party (Choice.core (lock.pc party) (.locking choice))
      ⟨resume source.core party (lock.pc party), lock⟩ := by
  have was : ¬ (source.lock.pc party).Holds := by
    rintro (is | is)
    · exact holding is
    · exact unlock is
  have inside : source.lock.pc party ≠ .wake → (source.core.pc party).afterLock.isSome := by
    intro awake
    rcases agrees.inside party with is | holds | is | at_
    · exact absurd is outside
    · exact absurd holds was
    · exact absurd is awake
    · exact at_
  have stays : ∀ {pc : FutexLock.Pc}, ¬ pc.Holds → resume source.core party pc = source.core ∧
      Choice.core pc (.locking choice) = none := by
    intro pc holds
    have differs : pc ≠ .holding := fun is => holds (.inl is)
    constructor
    · unfold resume
      split
      · exact if_neg differs
      · rfl
    · exact if_neg differs
  cases choice with
  | call operation =>
      obtain ⟨pc, starts, _⟩ := Option.map_eq_some_iff.mp taken
      cases operation with
      | tryLock | lock =>
          cases at_ : source.lock.pc party with
          | outside => exact absurd at_ outside
          | _ =>
              rw [at_] at starts
              cases starts
      | unlock =>
          cases at_ : source.lock.pc party with
          | holding => exact absurd at_ holding
          | _ =>
              rw [at_] at starts
              cases starts
  | go =>
      obtain ⟨⟨word, pc⟩, advances, rfl⟩ := Option.map_eq_some_iff.mp taken
      have awake : source.lock.pc party ≠ .wake := by
        intro is
        rw [is] at advances
        cases advances
      rw [FutexLock.State.move_pc_self]
      -- The exchange or the swap that finds the word free takes the lock.
      have taken : FutexLock.Change source.lock.word (source.lock.pc party) word pc :=
        FutexLock.advance_change advances
      cases taken with
      | takes free _ now mark =>
          obtain ⟨next, at_⟩ := Option.isSome_iff_exists.mp (inside awake)
          have marked : word ≠ FutexLock.unlocked := by
            rcases mark with rfl | ⟨rfl, _⟩ <;> decide
          subst now
          have resumed : resume source.core party .holding =
              source.core.perform party ⟨.lock, next, none⟩ := by
            unfold resume
            rw [at_]
            exact if_pos rfl
          rw [resumed]
          exact .acquires next at_ was free word marked
      | stays same holds cares awake' =>
          have now : ¬ pc.Holds := fun holding => was (holds.mp holding)
          rw [(stays now).1, (stays now).2]
          exact .waits (inside awake) was word (by rw [same]) pc now
      | marks locked _ mark now =>
          have other : ¬ pc.Holds := by
            rw [now]
            simp [FutexLock.Pc.Holds]
          rw [(stays other).1, (stays other).2]
          refine .waits (inside awake) was word (iff_of_true ?_ locked) pc other
          rw [mark]
          decide
      | parks mark same _ now =>
          have other : ¬ pc.Holds := by
            rw [now]
            simp [FutexLock.Pc.Holds]
          rw [(stays other).1, (stays other).2]
          exact .waits (inside awake) was word (by rw [same]) pc other
      | unlocks is free now => exact absurd is unlock
  | spurious =>
      simp only [FutexLock.step, Option.ite_none_right_eq_some, Option.some.injEq] at taken
      obtain ⟨asleep, rfl⟩ := taken
      rw [FutexLock.State.move_pc_self]
      have other : ¬ (FutexLock.Pc.spin true FutexLock.maxSpins).Holds := by
        simp [FutexLock.Pc.Holds]
      rw [(stays other).1, (stays other).2]
      have awake : source.lock.pc party ≠ .wake := by
        rw [asleep]
        decide
      exact .waits (inside awake) was _ Iff.rfl _ other
  | wake released =>
      have other : ¬ FutexLock.Pc.outside.Holds := by simp [FutexLock.Pc.Holds]
      cases released with
      | some sleeper =>
          simp only [FutexLock.step, Option.ite_none_right_eq_some, Option.some.injEq] at taken
          obtain ⟨⟨wakes, asleep⟩, rfl⟩ := taken
          rw [FutexLock.State.move_pc_self, (stays other).1, (stays other).2]
          exact .wakes sleeper wakes asleep
      | none =>
          simp only [FutexLock.step, Option.ite_none_right_eq_some, Option.some.injEq] at taken
          obtain ⟨⟨wakes, _⟩, rfl⟩ := taken
          rw [FutexLock.State.move_pc_self, (stays other).1, (stays other).2]
          exact .nobody wakes

theorem goes_of_step (agrees : Agrees source) {choice : Choice ι}
    (taken : step source (party, choice) = some target) :
    Goes source party (choice.core (target.lock.pc party)) target := by
  cases choice with
  | message choice =>
      simp only [step, Option.ite_none_right_eq_some] at taken
      obtain ⟨quiet, taken⟩ := taken
      obtain ⟨act, chosen, taken⟩ := Option.bind_eq_some_iff.mp taken
      rw [Option.ite_none_left_eq_some, not_or] at taken
      obtain ⟨⟨noLock, noUnlock⟩, taken⟩ := taken
      cases taken
      exact .message choice act chosen quiet noLock noUnlock
  | lock =>
      simp only [step, Option.ite_none_right_eq_some] at taken
      obtain ⟨at_, taken⟩ := taken
      obtain ⟨lock, begins, rfl⟩ := Option.map_eq_some_iff.mp taken
      obtain ⟨pc, starts, rfl⟩ := Option.map_eq_some_iff.mp begins
      cases was : source.lock.pc party with
      | outside =>
          rw [was] at starts
          cases starts
          exact .begins was at_
      | _ =>
          rw [was] at starts
          cases starts
  | locking choice =>
      simp only [step, Option.ite_none_left_eq_some, not_or] at taken
      obtain ⟨⟨outside, holding, unlock⟩, taken⟩ := taken
      obtain ⟨lock, moves, rfl⟩ := Option.map_eq_some_iff.mp taken
      exact goes_of_locking agrees outside holding unlock moves
  | unlock =>
      simp only [step, Option.ite_none_right_eq_some] at taken
      obtain ⟨_, taken⟩ := taken
      obtain ⟨lock, begins, rfl⟩ := Option.map_eq_some_iff.mp taken
      obtain ⟨pc, starts, rfl⟩ := Option.map_eq_some_iff.mp begins
      cases was : source.lock.pc party with
      | holding =>
          rw [was] at starts
          cases starts
          exact .unlock was
      | _ =>
          rw [was] at starts
          cases starts
  | unlocking choice =>
      simp only [step, Option.ite_none_right_eq_some] at taken
      obtain ⟨was, taken⟩ := taken
      obtain ⟨act, chosen, taken⟩ := Option.bind_eq_some_iff.mp taken
      rw [Option.ite_none_right_eq_some] at taken
      obtain ⟨effect, taken⟩ := taken
      obtain ⟨lock, moves, rfl⟩ := Option.map_eq_some_iff.mp taken
      obtain ⟨next, advances, rfl⟩ := Option.map_eq_some_iff.mp moves
      rw [was] at advances
      cases advances
      refine .releases choice act chosen effect was _ ?_
      split
      · exact .inl rfl
      · exact .inr rfl

/-! ## Every step keeps them together -/

omit [Fintype ι] in
/-- A party moves in the message and in the lock, and nobody else does. -/
theorem Agrees.perform (agrees : Agrees source) {act : Act} {word : BitVec 32} {pc : FutexLock.Pc}
    (mutex : (act.effect.apply source.core.msg).writerMutex =
      decide (word ≠ FutexLock.unlocked))
    (holds : pc.Holds ↔ act.pc.phase.Holds)
    (inside : pc = .outside ∨ pc.Holds ∨ pc = .wake ∨ act.pc.afterLock.isSome) :
    Agrees ⟨source.core.perform party act, source.lock.move party word pc⟩ where
  mutex := mutex
  holds other := by
    rw [State.phase_perform]
    by_cases here : other = party
    · subst here
      rwa [FutexLock.State.move_pc_self, if_pos rfl]
    · rw [source.lock.move_pc_of_ne here, if_neg here]
      exact agrees.holds other
  inside other := by
    dsimp only
    rw [State.view_perform Pc.afterLock WaitSite.afterLock_resume]
    by_cases here : other = party
    · subst here
      rwa [FutexLock.State.move_pc_self, if_pos rfl]
    · rw [source.lock.move_pc_of_ne here, if_neg here]
      exact agrees.inside other

omit [Fintype ι] in
/-- A party moves in the lock alone. -/
theorem Agrees.move (agrees : Agrees source) {word : BitVec 32} {pc : FutexLock.Pc}
    (same : word ≠ FutexLock.unlocked ↔ source.lock.word ≠ FutexLock.unlocked)
    (holds : pc.Holds ↔ (source.lock.pc party).Holds)
    (inside : pc = .outside ∨ pc.Holds ∨ pc = .wake ∨ (source.core.pc party).afterLock.isSome) :
    Agrees ⟨source.core, source.lock.move party word pc⟩ where
  mutex := agrees.mutex.trans (decide_eq_decide.mpr same.symm)
  holds other := by
    rw [← agrees.holds other]
    by_cases here : other = party
    · subst here
      rwa [FutexLock.State.move_pc_self]
    · rw [source.lock.move_pc_of_ne here]
  inside other := by
    by_cases here : other = party
    · subst here
      rwa [FutexLock.State.move_pc_self]
    · rw [source.lock.move_pc_of_ne here]
      exact agrees.inside other

omit [Fintype ι] in
theorem Agrees.goes {taken : Option RsIpc.Choice} (agrees : Agrees source)
    (goes : Goes source party taken target) : Agrees target := by
  cases goes with
  | message choice act chosen quiet noLock noUnlock =>
      have holds := (agrees.holds party).trans ((next_move chosen).holds_iff noLock noUnlock).symm
      rw [← source.lock.move_self party]
      refine agrees.perform ?_ holds ?_
      · rw [Effect.writerMutex_apply, ← agrees.mutex]
        cases effect : act.effect with
        | lock => exact absurd effect noLock
        | unlock => exact absurd effect noUnlock
        | _ => rfl
      · rcases quiet with is | is
        · exact .inl is
        · exact .inr (.inl (.inl is))
  | begins was at_ =>
      refine agrees.move Iff.rfl ?_ (.inr (.inr (.inr at_)))
      rw [was]
      decide
  | acquires next at_ was free word marked =>
      refine agrees.perform ?_ (iff_of_true (.inl rfl) ?_) (.inr (.inl (.inl rfl)))
      · rw [Effect.writerMutex_apply, decide_eq_true marked]
      · cases here : source.core.pc party with
        | lock writer | lockTarget count =>
            rw [here] at at_
            cases at_
            exact .inl rfl
        | _ =>
            rw [here] at at_
            cases at_
  | waits at_ was word same pc now =>
      exact agrees.move same (iff_of_false now was) (.inr (.inr (.inr at_)))
  | wakes sleeper was asleep =>
      have ne : party ≠ sleeper := by
        rintro rfl
        cases was.symm.trans asleep
      have woken : Agrees ⟨source.core,
          source.lock.move sleeper source.lock.word (.spin true FutexLock.maxSpins)⟩ := by
        refine agrees.move Iff.rfl ?_ (.inr (.inr (.inr ?_)))
        · rw [asleep]
          decide
        · rcases agrees.inside sleeper with is | is | is | at_
          · cases asleep.symm.trans is
          · rw [asleep] at is
            exact absurd is (by decide)
          · cases asleep.symm.trans is
          · exact at_
      refine woken.move Iff.rfl ?_ (.inl rfl)
      dsimp only
      rw [source.lock.move_pc_of_ne ne, was]
      decide
  | nobody was =>
      refine agrees.move Iff.rfl ?_ (.inl rfl)
      rw [was]
      decide
  | unlock was =>
      refine agrees.move Iff.rfl ?_ (.inr (.inl (.inr rfl)))
      rw [was]
      decide
  | releases choice act chosen effect was pc now =>
      have outside : act.pc.phase = .outside := by
        cases next_move chosen with
        | abandon _ is now | unlock _ is now => exact now
        | observe same is | notify which same is | wake which same is | setStopped same is
        | lock free before is now | setWriting before is now | drained none before is now
        | clearWriting before is now | storeByte index byte before is now
        | storeSize size before is now | resetConsumed before is now | publish before is now
        | setTarget count before is now | register before is now | granted down before is now
        | unregister before is now | release before is now | addReader before is now
        | removeReader before is now => cases effect.symm.trans is
      refine agrees.perform ?_ (iff_of_false ?_ ?_) ?_
      · rw [Effect.writerMutex_apply, effect]
        rfl
      · rcases now with rfl | rfl <;> decide
      · rw [outside]
        decide
      · rcases now with rfl | rfl
        · exact .inr (.inr (.inl rfl))
        · exact .inl rfl

omit [Fintype ι] in
/-- A step of the whole is a step of the message over the one-step lock, or none. -/
theorem core_of_goes {taken : Option RsIpc.Choice} (agrees : Agrees source)
    (goes : Goes source party taken target) :
    taken.elim (target.core = source.core) fun choice =>
      source.core.step (party, choice) = some target.core := by
  cases goes with
  | message choice act chosen quiet noLock noUnlock | releases choice act chosen effect was pc now =>
      exact State.step_eq_some_iff.mpr ⟨act, chosen, rfl⟩
  | acquires next at_ was free word marked =>
      have open_ : source.core.msg.writerMutex = false := by
        rw [agrees.mutex, free]
        rfl
      refine State.step_eq_some_iff.mpr ⟨_, ?_, rfl⟩
      cases here : source.core.pc party with
      | lock writer | lockTarget count =>
          rw [here] at at_
          cases at_
          simp [RsIpc.next, advance, open_]
      | _ =>
          rw [here] at at_
          cases at_
  | _ => rfl

/-- A step of the whole is a step of the lock, or leaves it alone. -/
theorem lock_of_step {choice : Choice ι} (taken : step source (party, choice) = some target) :
    target.lock = source.lock ∨
      ∃ label, FutexLock.step source.lock label = some target.lock := by
  cases choice with
  | message choice =>
      simp only [step, Option.ite_none_right_eq_some] at taken
      obtain ⟨act, _, taken⟩ := Option.bind_eq_some_iff.mp taken.2
      rw [Option.ite_none_left_eq_some] at taken
      cases taken.2
      exact .inl rfl
  | lock | unlock =>
      simp only [step, Option.ite_none_right_eq_some] at taken
      obtain ⟨lock, begins, rfl⟩ := Option.map_eq_some_iff.mp taken.2
      exact .inr ⟨_, begins⟩
  | locking choice =>
      simp only [step, Option.ite_none_left_eq_some] at taken
      obtain ⟨lock, moves, rfl⟩ := Option.map_eq_some_iff.mp taken.2
      exact .inr ⟨_, moves⟩
  | unlocking choice =>
      simp only [step, Option.ite_none_right_eq_some] at taken
      obtain ⟨act, _, taken⟩ := Option.bind_eq_some_iff.mp taken.2
      rw [Option.ite_none_right_eq_some] at taken
      obtain ⟨lock, moves, rfl⟩ := Option.map_eq_some_iff.mp taken.2
      exact .inr ⟨_, moves⟩

end Steps

/-! ## Runs -/

/-- The condition holds of the step of the message, if there is one. -/
def OnCore (ok : StepCondition (State ι) (ι × RsIpc.Choice)) :
    StepCondition (Whole ι) (ι × Choice ι) :=
  fun source label target =>
    match label.2.core (target.lock.pc label.1) with
    | none => True
    | some choice => ok source.core (label.1, choice) target.core

instance {ok : StepCondition (State ι) (ι × RsIpc.Choice)}
    [∀ source label target, Decidable (ok source label target)] (source : Whole ι)
    (label : ι × Choice ι) (target : Whole ι) : Decidable (OnCore ok source label target) := by
  unfold OnCore
  split
  · infer_instance
  · infer_instance

section Runs

variable [Fintype ι] {targetRead consumers : BitVec 16}
  {ok : StepCondition (State ι) (ι × RsIpc.Choice)} {state : Whole ι}

theorem agrees_of_reachable {ok : StepCondition (Whole ι) (ι × Choice ι)}
    (reachable : (system ι targetRead consumers).ReachableVia ok state) : Agrees state := by
  refine reachable.invariant Agrees ?_ ?_
  · rintro ⟨_, _⟩ ⟨⟨capacity, rfl⟩, rfl⟩
    constructor
    · rfl
    · intro party
      have outside : ¬ FutexLock.Pc.outside.Holds := by decide
      have idle : ¬ Pc.idle.phase.Holds := by decide
      exact iff_of_false outside idle
    · intro party
      exact .inl rfl
  · rintro source ⟨party, choice⟩ target _ agrees step _
    exact agrees.goes (goes_of_step agrees step)

/-- What the message goes through over the futex lock is a run over the one-step lock,
and what the lock goes through is a run of the lock on its own; the flag of the one-step
lock is the word, and both have the same holder. -/
theorem runs_over_futexLock (reachable : (system ι targetRead consumers).ReachableVia (OnCore ok) state) :
    (RsIpc.system ι targetRead consumers).ReachableVia ok state.core ∧
    (FutexLock.system ι).Reachable state.lock ∧
    (state.core.msg.writerMutex = true ↔ state.lock.word ≠ FutexLock.unlocked) ∧
    ∀ party, (state.lock.pc party).Holds ↔ (state.core.pc party).phase.Holds := by
  have agrees := agrees_of_reachable reachable
  refine ⟨?_, ?_, ?_, agrees.holds⟩
  · refine reachable.part Whole.core ?_ ?_
    · intro state start
      exact start.1
    · rintro source target ⟨party, choice⟩ before step meets
      have agrees := agrees_of_reachable before
      have core := core_of_goes agrees (goes_of_step agrees step)
      unfold OnCore at meets
      cases taken : choice.core (target.lock.pc party) with
      | none =>
          rw [taken] at core
          exact .inl core
      | some act =>
          rw [taken] at core meets
          exact .inr ⟨(party, act), core, meets⟩
  · refine reachable.part Whole.lock ?_ ?_
    · intro state start
      exact start.2
    · rintro source target ⟨party, choice⟩ _ step _
      rcases lock_of_step step with same | ⟨label, taken⟩
      · exact .inl same
      · exact .inr ⟨label, taken, trivial⟩
  · rw [agrees.mutex, decide_eq_true_iff]

end Runs

/-- A writer publishes while another one sleeps on the lock, and wakes it; the other
then holds the lock. -/
def handedOver : Whole (Fin 2) :=
  (system (Fin 2) 0 0).finish ⟨State.fresh (Fin 2) 4 0 0, ⟨FutexLock.unlocked, fun _ => .outside⟩⟩
    ([(0, .message (.invoke (.writeSlice [7]))), (0, .message .go), (0, .lock), (0, .locking .go),
      (1, .message (.invoke .write)), (1, .message .go), (1, .lock)] ++
      List.replicate 104 (1, .locking .go) ++ List.replicate 12 (0, .message .go) ++
      [(0, .unlock), (0, .unlocking .go), (0, .locking (.wake (some 1)))] ++
      List.replicate 2 (1, .locking .go)) (by decide +kernel)

theorem handedOver_runs_over_futexLock :
    handedOver.core.pc 0 = .done (.sequence 1) ∧ handedOver.core.pc 1 = .loadSequence .guard ∧
      handedOver.lock.word = FutexLock.contended ∧
      (RsIpc.system (Fin 2) 0 0).ReachableVia Bounded handedOver.core := by
  have starts : (system (Fin 2) 0 0).initial
      ⟨State.fresh (Fin 2) 4 0 0, ⟨FutexLock.unlocked, fun _ => .outside⟩⟩ :=
    ⟨initial_fresh (Fin 2) 4 0 0, rfl⟩
  have reachable : (system (Fin 2) 0 0).ReachableVia (OnCore Bounded) handedOver :=
    System.reachableVia_finish starts _ (by decide +kernel)
  have ends : handedOver.core.pc 0 = .done (.sequence 1) ∧
      handedOver.core.pc 1 = .loadSequence .guard ∧ handedOver.lock.word = FutexLock.contended := by
    decide +kernel
  exact ⟨ends.1, ends.2.1, ends.2.2, (runs_over_futexLock reachable).1⟩

end Locked

end RsIpc
