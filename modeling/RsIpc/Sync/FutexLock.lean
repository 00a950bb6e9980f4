import Mathlib.Data.Fintype.Basic
import RsIpc.Protocol.Handshake
import RsIpc.Transition.Core

/-!
# The futex lock

`FutexLock` is a word with three values.  `lock` tries an exchange, spins, marks
the word as contended and sleeps; `unlock` wakes one sleeper if the word was
marked.  A party that has slept marks the word again before it takes the lock or
sleeps, so the mark outlives the sleepers it was made for.
-/

namespace RsIpc.FutexLock

open Protocol.Handshake Transition

universe u

/-! ## The words and the points -/

def unlocked : BitVec 32 := 0

/-- Locked, no other threads waiting. -/
def locked : BitVec 32 := 1

/-- Locked, and other threads waiting. -/
def contended : BitVec 32 := 2

/-- The spin limit of `spin`. -/
def maxSpins : Nat := 100

/-- What a party may call. -/
inductive Operation
  | tryLock
  | lock
  | unlock
  deriving DecidableEq, Repr

/-- The points between two atomic operations.  `woken` says that `lock_contended` is
in its loop and has been through `futex_wait`. -/
inductive Pc
  | outside
  | tryLock
  | lock
  -- `lock_contended`
  | spin (woken : Bool) (spins : Nat)
  | exchange
  | swap
  | wait
  | parked
  -- the guard is held
  | holding
  | unlock
  | wake
  deriving DecidableEq, Repr

/-- What the scheduler and the caller decide: `spurious` is a spurious wake-up, and
`wake` says whom `futex_wake_one` releases. -/
inductive Choice (ι : Type u)
  | call (operation : Operation)
  | go
  | spurious
  | wake (released : Option ι)
  deriving DecidableEq

/-- The head of the loop of `lock_contended`, with the state read last. -/
def loopHead (state : BitVec 32) : Pc :=
  if state ≠ contended then .swap else .wait

/-- Where `lock_contended` goes on with the state that `spin` returned. -/
def afterSpin (woken : Bool) (state : BitVec 32) : Pc :=
  if woken then loopHead state else if state = unlocked then .exchange else loopHead state

/-- `compare_exchange(UNLOCKED, LOCKED)`, and where a party goes on if it fails. -/
def compareExchange (word : BitVec 32) (fails : Pc) : BitVec 32 × Pc :=
  if word = unlocked then (locked, .holding) else (word, fails)

/-- The operation at a point where the program alone decides. -/
def advance (word : BitVec 32) : Pc → Option (BitVec 32 × Pc)
  | .tryLock => some (compareExchange word .outside)
  | .lock => some (compareExchange word (.spin false maxSpins))
  | .spin woken spins =>
      some (if word ≠ locked ∨ spins = 0 then (word, afterSpin woken word)
        else (word, .spin woken (spins - 1)))
  | .exchange => some (compareExchange word (loopHead word))
  | .swap => some (if word = unlocked then (contended, .holding) else (contended, .wait))
  -- `futex_wait` compares and parks in one step
  | .wait => some (if word = contended then (word, .parked) else (word, .spin true maxSpins))
  | .unlock => some (unlocked, if word = contended then .wake else .outside)
  | .outside | .parked | .holding | .wake => none

/-- Where a call begins; only the holder calls `unlock`. -/
def Operation.start : Operation → Pc → Option Pc
  | .tryLock, .outside => some .tryLock
  | .lock, .outside => some .lock
  | .unlock, .holding => some .unlock
  | _, _ => none

/-! ## All parties together -/

structure State (ι : Type u) where
  word : BitVec 32
  pc : ι → Pc

variable {ι : Type u} [DecidableEq ι]

/-- The state after a party has stored a word and moved. -/
def State.move (state : State ι) (party : ι) (word : BitVec 32) (pc : Pc) : State ι where
  word := word
  pc other := if other = party then pc else state.pc other

@[simp]
theorem State.move_word (state : State ι) (party : ι) (word : BitVec 32) (pc : Pc) :
    (state.move party word pc).word = word :=
  rfl

@[simp]
theorem State.move_pc_self (state : State ι) (party : ι) (word : BitVec 32) (pc : Pc) :
    (state.move party word pc).pc party = pc :=
  if_pos rfl

theorem State.move_pc_of_ne (state : State ι) {party other : ι} (ne : other ≠ party)
    (word : BitVec 32) (pc : Pc) : (state.move party word pc).pc other = state.pc other :=
  if_neg ne

/-- One step of one party. -/
def step [Fintype ι] (state : State ι) (label : ι × Choice ι) : Option (State ι) :=
  match label.2 with
  | .call operation =>
      (operation.start (state.pc label.1)).map (state.move label.1 state.word)
  | .go => (advance state.word (state.pc label.1)).map fun next => state.move label.1 next.1 next.2
  | .spurious =>
      if state.pc label.1 = .parked then
        some (state.move label.1 state.word (.spin true maxSpins))
      else none
  | .wake (some sleeper) =>
      if state.pc label.1 = .wake ∧ state.pc sleeper = .parked then
        some ((state.move sleeper state.word (.spin true maxSpins)).move label.1 state.word .outside)
      else none
  | .wake none =>
      if state.pc label.1 = .wake ∧ ∀ sleeper, state.pc sleeper ≠ .parked then
        some (state.move label.1 state.word .outside)
      else none

/-- Any number of parties on one lock that starts at zero. -/
def system (ι : Type u) [Fintype ι] [DecidableEq ι] : System (State ι) (ι × Choice ι) where
  initial state := state = ⟨unlocked, fun _ => .outside⟩
  step := step

/-! ## Views of a point -/

/-- The party holds the lock: it has taken it and not yet swapped it back. -/
def Pc.Holds (pc : Pc) : Prop :=
  pc = .holding ∨ pc = .unlock

/-- The party is inside `lock_contended`, and not parked. -/
def Pc.Contends : Pc → Prop
  | .spin _ _ | .exchange | .swap | .wait => True
  | _ => False

/-- The party is inside `lock` or `unlock`, and not parked. -/
def Pc.Works (pc : Pc) : Prop :=
  pc = .lock ∨ pc.Contends ∨ pc = .unlock ∨ pc = .wake

/-- The party will wake a sleeper, or mark the word before it leaves or sleeps. -/
def Pc.Cares : Pc → Prop
  | .spin true _ | .swap | .wait | .wake => True
  | _ => False

theorem Pc.Cares.contends_or_wake {pc : Pc} (cares : pc.Cares) : pc.Contends ∨ pc = .wake := by
  cases pc with
  | spin woken spins | swap | wait => exact .inl trivial
  | wake => exact .inr rfl
  | _ => cases cares

theorem Pc.Cares.works {pc : Pc} (cares : pc.Cares) : pc.Works := by
  rcases cares.contends_or_wake with contends | wakes
  · exact .inr (.inl contends)
  · exact .inr (.inr (.inr wakes))

instance : DecidablePred Pc.Holds := fun pc => by
  unfold Pc.Holds
  infer_instance

/-- What a step of a party does to the word and to its point. -/
inductive Change (word : BitVec 32) (pc : Pc) (word' : BitVec 32) (pc' : Pc) : Prop
  | stays (same : word' = word) (holds : pc'.Holds ↔ pc.Holds) (cares : pc.Cares → pc'.Cares)
      (awake : pc' ≠ .parked)
  | takes (free : word = unlocked) (was : ¬ pc.Holds) (now : pc' = .holding)
      (mark : word' = contended ∨ word' = locked ∧ ¬ pc.Cares)
  | marks (taken : word ≠ unlocked) (was : pc = .swap) (mark : word' = contended) (now : pc' = .wait)
  | parks (mark : word = contended) (same : word' = word) (was : pc = .wait) (now : pc' = .parked)
  | unlocks (was : pc = .unlock) (free : word' = unlocked)
      (now : pc' = if word = contended then .wake else .outside)

theorem loopHead_stays (state word : BitVec 32) {pc : Pc} (holds : ¬ pc.Holds) :
    Change word pc word (loopHead state) := by
  unfold loopHead
  split
  · exact .stays rfl (iff_of_false (by simp [Pc.Holds]) holds) (fun _ => trivial) nofun
  · exact .stays rfl (iff_of_false (by simp [Pc.Holds]) holds) (fun _ => trivial) nofun

theorem afterSpin_stays (woken : Bool) (spins : Nat) (state word : BitVec 32) :
    Change word (.spin woken spins) word (afterSpin woken state) := by
  cases woken with
  | true => exact loopHead_stays state word (by simp [Pc.Holds])
  | false =>
      simp only [afterSpin, Bool.false_eq_true, if_false]
      split
      · exact .stays rfl (by simp [Pc.Holds]) nofun nofun
      · exact loopHead_stays state word (by simp [Pc.Holds])

theorem compareExchange_change {word : BitVec 32} {pc fails : Pc} (holds : ¬ pc.Holds)
    (cares : ¬ pc.Cares) (else_ : Change word pc word fails) :
    Change word pc (compareExchange word fails).1 (compareExchange word fails).2 := by
  unfold compareExchange
  split
  · rename_i free
    exact .takes free holds rfl (.inr ⟨rfl, cares⟩)
  · exact else_

/-- What the program does at each point. -/
theorem advance_change {word : BitVec 32} {pc : Pc} {next : BitVec 32 × Pc}
    (taken : advance word pc = some next) : Change word pc next.1 next.2 := by
  cases pc with
  | tryLock =>
      cases taken
      exact compareExchange_change (by simp [Pc.Holds]) id
        (.stays rfl (by simp [Pc.Holds]) id nofun)
  | lock =>
      cases taken
      exact compareExchange_change (by simp [Pc.Holds]) id
        (.stays rfl (by simp [Pc.Holds]) nofun nofun)
  | spin woken spins =>
      cases taken
      split
      · exact afterSpin_stays woken spins word word
      · refine .stays rfl (by simp [Pc.Holds]) ?_ nofun
        cases woken with
        | true => exact id
        | false => exact id
  | exchange =>
      cases taken
      exact compareExchange_change (by simp [Pc.Holds]) id (loopHead_stays _ _ (by simp [Pc.Holds]))
  | swap =>
      cases taken
      split
      · rename_i free
        exact .takes free (by simp [Pc.Holds]) rfl (.inl rfl)
      · rename_i taken
        exact .marks taken rfl rfl rfl
  | wait =>
      cases taken
      split
      · rename_i marked
        exact .parks marked rfl rfl rfl
      · exact .stays rfl (by simp [Pc.Holds]) (fun _ => trivial) nofun
  | unlock =>
      cases taken
      exact .unlocks rfl rfl rfl
  | _ => cases taken

/-! ## Steps -/

section Steps

variable [Fintype ι]

/-- One step of the whole: a party changes the word and its point, or wakes a sleeper,
or finds nobody to wake. -/
inductive Takes (source : State ι) (party : ι) : State ι → Prop
  | change (word : BitVec 32) (pc : Pc)
      (change : Change source.word (source.pc party) word pc) :
      Takes source party (source.move party word pc)
  | wakes (sleeper : ι) (was : source.pc party = .wake) (asleep : source.pc sleeper = .parked) :
      Takes source party
        ((source.move sleeper source.word (.spin true maxSpins)).move party source.word .outside)
  | nobody (was : source.pc party = .wake) (awake : ∀ sleeper, source.pc sleeper ≠ .parked) :
      Takes source party (source.move party source.word .outside)

theorem start_change {operation : Operation} {word : BitVec 32} {pc next : Pc}
    (starts : operation.start pc = some next) : Change word pc word next := by
  cases operation with
  | tryLock | lock =>
      cases pc with
      | outside =>
          cases starts
          exact .stays rfl (by simp [Pc.Holds]) id nofun
      | _ => cases starts
  | unlock =>
      cases pc with
      | holding =>
          cases starts
          exact .stays rfl (by simp [Pc.Holds]) id nofun
      | _ => cases starts

theorem step_takes {source target : State ι} {party : ι} {choice : Choice ι}
    (taken : step source (party, choice) = some target) : Takes source party target := by
  cases choice with
  | call operation =>
      obtain ⟨pc, starts, rfl⟩ := Option.map_eq_some_iff.mp taken
      exact .change source.word pc (start_change starts)
  | go =>
      obtain ⟨next, advances, rfl⟩ := Option.map_eq_some_iff.mp taken
      exact .change next.1 next.2 (advance_change advances)
  | spurious =>
      simp only [step, Option.ite_none_right_eq_some, Option.some.injEq] at taken
      obtain ⟨asleep, rfl⟩ := taken
      refine .change _ _ (.stays rfl ?_ (fun _ => trivial) nofun)
      rw [asleep]
      simp [Pc.Holds]
  | wake released =>
      cases released with
      | some sleeper =>
          simp only [step, Option.ite_none_right_eq_some, Option.some.injEq] at taken
          obtain ⟨⟨was, asleep⟩, rfl⟩ := taken
          exact .wakes sleeper was asleep
      | none =>
          simp only [step, Option.ite_none_right_eq_some, Option.some.injEq] at taken
          obtain ⟨⟨was, awake⟩, rfl⟩ := taken
          exact .nobody was awake

end Steps

/-! ## Exclusion -/

/-- The lock of the handshake: the word is not zero. -/
def State.handshake (state : State ι) : Config ι where
  locked := decide (state.word ≠ unlocked)
  flag := false
  phase party := if (state.pc party).Holds then .holding else .outside

/-- What the others see of a sleeper and of one that has been woken. -/
theorem handshake_move_of_not_holds (state : State ι) {party : ι} {pc : Pc}
    (before : ¬ (state.pc party).Holds) (after : ¬ pc.Holds) :
    (state.move party state.word pc).handshake = state.handshake := by
  have phases : (state.move party state.word pc).handshake.phase = state.handshake.phase := by
    funext other
    by_cases here : other = party
    · subst here
      simp only [State.handshake, State.move_pc_self, if_neg before, if_neg after]
    · simp only [State.handshake, state.move_pc_of_ne here]
  rw [State.handshake, State.handshake, Config.mk.injEq]
  exact ⟨rfl, rfl, phases⟩

/-- The futex lock is a lock: its steps take a free lock, give back one's own, or
leave it alone. -/
theorem Change.handshake {word word' : BitVec 32} {pc pc' : Pc} (change : Change word pc word' pc')
    (held : pc.Holds → word ≠ unlocked) :
    Protocol.Handshake.Change True (decide (word ≠ unlocked)) false
      (if pc.Holds then .holding else .outside)
      (decide (word' ≠ unlocked)) false (if pc'.Holds then .holding else .outside) := by
  cases change with
  | stays same holds cares awake =>
      subst same
      exact .stay rfl rfl (by simp only [holds])
  | takes free was now mark =>
      have marked : word' ≠ unlocked := by
        rcases mark with rfl | ⟨rfl, _⟩ <;> decide
      exact .acquire (by simp [free]) (if_neg was) (by simp [marked]) rfl (by simp [now, Pc.Holds])
  | marks taken was mark now =>
      subst mark was now
      have both : decide (contended ≠ unlocked) = decide (word ≠ unlocked) := by
        rw [decide_eq_true taken]
        rfl
      exact .stay both rfl (by simp [Pc.Holds])
  | parks mark same was now =>
      subst same was now
      exact .stay rfl rfl (by simp [Pc.Holds])
  | unlocks was free now =>
      subst free was
      have outside : ¬ pc'.Holds := by
        rw [now]
        split <;> simp [Pc.Holds]
      exact .release (by simp [Pc.Holds]) (by simp) rfl (if_neg outside)

section Runs

/-- A step of the futex lock is a step of the lock of the handshake. -/
theorem handshake_step {source target : State ι} {party : ι} (owned : Owned source.handshake)
    (takes : Takes source party target) :
    Protocol.Handshake.Step True party source.handshake target.handshake := by
  have holds_of : ∀ {other}, (source.pc other).Holds → source.word ≠ unlocked := by
    intro other holds
    have locked : source.handshake.locked = true := owned.locked (.inl (if_pos holds))
    exact of_decide_eq_true locked
  cases takes with
  | change word pc change =>
      constructor
      · have handshake := change.handshake holds_of
        rw [← source.move_pc_self party word pc] at handshake
        exact handshake
      · intro other ne
        simp only [State.handshake, source.move_pc_of_ne ne]
  | wakes sleeper was asleep =>
      have ne : party ≠ sleeper := by
        rintro rfl
        exact absurd (was.symm.trans asleep) nofun
      have woken : (source.move sleeper source.word (.spin true maxSpins)).handshake =
          source.handshake :=
        handshake_move_of_not_holds source (by simp [asleep, Pc.Holds]) (by simp [Pc.Holds])
      have same : ((source.move sleeper source.word (.spin true maxSpins)).move party source.word
          .outside).handshake = (source.move sleeper source.word (.spin true maxSpins)).handshake := by
        refine handshake_move_of_not_holds (source.move sleeper source.word _) ?_ (by simp [Pc.Holds])
        rw [source.move_pc_of_ne ne, was]
        simp [Pc.Holds]
      rw [same, woken]
      exact ⟨.stay rfl rfl rfl, fun _ _ => rfl⟩
  | nobody was awake =>
      have same : (source.move party source.word .outside).handshake = source.handshake :=
        handshake_move_of_not_holds source (by simp [was, Pc.Holds]) (by simp [Pc.Holds])
      rw [same]
      exact ⟨.stay rfl rfl rfl, fun _ _ => rfl⟩

/-! ## Sleepers -/

omit [DecidableEq ι] in
/-- As long as somebody sleeps, the word is marked or some party cares. -/
def State.Cared (state : State ι) : Prop :=
  (∃ sleeper, state.pc sleeper = .parked) →
    state.word = contended ∨ ∃ party, (state.pc party).Cares

/-- A party that changes the word leaves the sleepers cared for. -/
theorem State.Cared.change {source : State ι} {party : ι} {word : BitVec 32} {pc : Pc}
    (cared : source.Cared) (change : Change source.word (source.pc party) word pc) :
    (source.move party word pc).Cared := by
  rintro ⟨sleeper, asleep⟩
  have before : pc ≠ .parked → source.word = contended ∨ ∃ other, (source.pc other).Cares := by
    intro awake
    refine cared ⟨sleeper, ?_⟩
    by_cases here : sleeper = party
    · rw [here, State.move_pc_self] at asleep
      exact absurd asleep awake
    · rwa [source.move_pc_of_ne here] at asleep
  have others : ∀ {other}, (source.pc other).Cares → other ≠ party →
      ∃ other, ((source.move party word pc).pc other).Cares := by
    intro other cares ne
    exact ⟨other, by rwa [source.move_pc_of_ne ne]⟩
  have itself : pc.Cares → ∃ other, ((source.move party word pc).pc other).Cares := by
    intro cares
    exact ⟨party, by rwa [State.move_pc_self]⟩
  cases change with
  | stays same holds cares awake =>
      rcases before awake with marked | ⟨other, otherCares⟩
      · exact .inl (same.trans marked)
      · right
        by_cases here : other = party
        · rw [here] at otherCares
          exact itself (cares otherCares)
        · exact others otherCares here
  | takes free was now mark =>
      rcases before (by rw [now]; nofun) with marked | ⟨other, otherCares⟩
      · exact absurd (free.symm.trans marked) (by decide)
      · rcases mark with mark | ⟨_, careless⟩
        · exact .inl mark
        · right
          refine others otherCares ?_
          rintro rfl
          exact careless otherCares
  | marks taken was mark now => exact .inl mark
  | parks mark same was now => exact .inl (same.trans mark)
  | unlocks was free now =>
      by_cases marked : source.word = contended
      · right
        rw [if_pos marked] at now
        exact itself (by rw [now]; trivial)
      · rw [if_neg marked] at now
        rcases before (by rw [now]; nofun) with mark | ⟨other, otherCares⟩
        · exact absurd mark marked
        · right
          refine others otherCares ?_
          rintro rfl
          rw [was] at otherCares
          exact otherCares

theorem State.Cared.takes {source target : State ι} {party : ι} (cared : source.Cared)
    (takes : Takes source party target) : target.Cared := by
  cases takes with
  | change word pc change => exact cared.change change
  | wakes sleeper was asleep =>
      intro _
      have ne : sleeper ≠ party := by
        rintro rfl
        exact absurd (was.symm.trans asleep) nofun
      right
      refine ⟨sleeper, ?_⟩
      rw [State.move_pc_of_ne _ ne, State.move_pc_self]
      trivial
  | nobody was awake =>
      rintro ⟨sleeper, asleep⟩
      by_cases here : sleeper = party
      · rw [here, State.move_pc_self] at asleep
        cases asleep
      · rw [source.move_pc_of_ne here] at asleep
        exact absurd asleep (awake sleeper)

/-! ## Reachable states -/

variable [Fintype ι]

theorem owned_of_reachable {state : State ι} (reachable : (system ι).Reachable state) :
    Owned state.handshake := by
  refine reachable.invariant (fun state => Owned state.handshake) ?_ ?_
  · rintro _ rfl
    exact .start rfl fun _ => rfl
  · rintro source ⟨party, choice⟩ target _ owned step _
    exact owned.step (handshake_step owned (step_takes step))

theorem cared_of_reachable {state : State ι} (reachable : (system ι).Reachable state) :
    state.Cared := by
  refine reachable.invariant State.Cared ?_ ?_
  · rintro _ rfl ⟨sleeper, asleep⟩
    cases asleep
  · rintro source ⟨party, choice⟩ target _ cared step _
    exact cared.takes (step_takes step)

omit [DecidableEq ι] [Fintype ι] in
/-- A party that holds the lock, as the handshake sees it. -/
theorem State.holds_iff (state : State ι) (party : ι) :
    (state.handshake.phase party).Holds ↔ (state.pc party).Holds := by
  unfold State.handshake
  by_cases holds : (state.pc party).Holds
  · simp [holds, Phase.Holds]
  · simp [holds, Phase.Holds]

/-- At most one party holds the lock, and the word is zero exactly when nobody does.
While a party sleeps, a free lock has somebody awake inside `lock` or `unlock`, and
an unmarked lock has somebody inside `lock_contended` or with a wake to send. -/
theorem excludes_and_strands_nobody {state : State ι} (reachable : (system ι).Reachable state) :
    (∀ first second, (state.pc first).Holds → (state.pc second).Holds → first = second) ∧
    (state.word = unlocked ↔ ∀ party, ¬ (state.pc party).Holds) ∧
    (¬ ((∃ sleeper, state.pc sleeper = .parked) ∧ state.word = unlocked ∧
      ∀ party, ¬ (state.pc party).Works)) ∧
    ((∃ sleeper, state.pc sleeper = .parked) → state.word = locked →
      ∃ party, (state.pc party).Contends ∨ state.pc party = .wake) := by
  have owned := owned_of_reachable reachable
  have cared := cared_of_reachable reachable
  refine ⟨?_, ?_, ?_, ?_⟩
  · intro first second firstHolds secondHolds
    exact owned.unique ((state.holds_iff first).mpr firstHolds) ((state.holds_iff second).mpr secondHolds)
  · constructor
    · intro free party holds
      have taken := owned.locked ((state.holds_iff party).mpr holds)
      exact of_decide_eq_true taken free
    · intro nobody
      by_contra taken
      obtain ⟨party, holds⟩ := owned.held (decide_eq_true taken)
      exact nobody party ((state.holds_iff party).mp holds)
  · rintro ⟨sleepers, free, idle⟩
    rcases cared sleepers with marked | ⟨party, cares⟩
    · exact absurd (free.symm.trans marked) (by decide)
    · exact idle party cares.works
  · intro sleepers unmarked
    rcases cared sleepers with marked | ⟨party, cares⟩
    · exact absurd (unmarked.symm.trans marked) (by decide)
    · exact ⟨party, cares.contends_or_wake⟩

/-- Two parties; one holds the lock and the other falls asleep, then the holder swaps
the word back. -/
def lateWake : State (Fin 2) :=
  (system (Fin 2)).finish ⟨unlocked, fun _ => .outside⟩
    ([(0, .call .lock), (0, .go), (1, .call .lock)] ++ List.replicate 104 (1, .go) ++
      [(0, .call .unlock), (0, .go)]) (by decide +kernel)

theorem lateWake_strands_nobody :
    lateWake.pc 1 = .parked ∧ lateWake.word = unlocked ∧ ¬ ∀ party, ¬ (lateWake.pc party).Works := by
  have asleep : lateWake.pc 1 = .parked ∧ lateWake.word = unlocked := by decide +kernel
  have reachable : (system (Fin 2)).Reachable lateWake := System.reachable_finish rfl _
  refine ⟨asleep.1, asleep.2, fun idle => ?_⟩
  exact (excludes_and_strands_nobody reachable).2.2.1 ⟨⟨1, asleep.1⟩, asleep.2, idle⟩

end Runs

end RsIpc.FutexLock
