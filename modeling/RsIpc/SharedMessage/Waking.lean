import Mathlib.Data.Fintype.Basic
import RsIpc.SharedMessage.System
import RsIpc.SharedMessage.Takes

/-!
# Tickets and notifications

A party reads a ticket, looks at the words, and parks if the condition variable
still has the value of its ticket.  Whoever ends the reason for waiting owes a
notification until it has made it.  A sleeper is left alone as long as its
ticket is current, and nobody owes it anything only if nobody has changed the
words since.
-/

namespace RsIpc

open Transition

universe u

/-! ## Owing a notification -/

/-- The party has changed the words and has yet to count up the condition
variable of those who may wait for that change. -/
def Pc.owes : Pc → Condvar → Bool
  | .notify (.published _), .writer => true
  | .notify .stopReaders, _ => true
  | .wake .stopReaders, .readerDone | .notify .stopWriters, .readerDone => true
  | .notify .released, .readerDone | .notify (.unregistered _ _), .readerDone => true
  | _, _ => false

/-- The condition variable that the party has counted up and is about to wake. -/
def Pc.waking : Pc → Option Condvar
  | .wake site => some site.condvar
  | _ => none

/-- The condition variable and the ticket that the party may come to wait with. -/
def Pc.ticket : Pc → Option (Condvar × Nat)
  | .backpressureStopped _ ticket | .notify (.kick _ ticket) | .wake (.kick _ ticket)
  | .nextReaders _ ticket | .drainReaders _ ticket | .drainStopped _ ticket =>
      some (.readerDone, ticket)
  | .readState _ _ ticket => some (.writer, ticket)
  | .wait site ticket _ | .parked site ticket => some (site.condvar, ticket)
  | _ => none

theorem WaitSite.owes_resume (which : Condvar) (site : WaitSite) (ticket : Nat) :
    site.resume.owes which = (Pc.parked site ticket).owes which := by
  cases site <;> rfl

theorem WaitSite.waking_resume (site : WaitSite) (ticket : Nat) :
    site.resume.waking = (Pc.parked site ticket).waking := by
  cases site <;> rfl

theorem WaitSite.ticket_resume (site : WaitSite) : site.resume.ticket = none := by
  cases site <;> rfl

/-- A party that is still parked was not woken. -/
theorem Pc.parked_of_after {pc : Pc} {effect : Effect} {site : WaitSite} {ticket : Nat}
    (parked : pc.after effect = .parked site ticket) :
    pc = .parked site ticket ∧ effect ≠ .wake site.condvar := by
  cases effect with
  | wake which =>
      cases pc with
      | parked other kept =>
          simp only [Pc.after, Pc.wakeOn] at parked
          split at parked
          · cases other <;> cases parked
          · rename_i ne
            cases parked
            exact ⟨rfl, fun same => ne (Effect.wake.inj same).symm⟩
      | _ => cases parked
  | _ => exact ⟨parked, by simp⟩

/-- A debt is carried along until it is paid. -/
theorem Takes.owes {msg : SharedMessage} {pc : Pc} {act : Act} (takes : Takes msg pc act)
    {which : Condvar} (owes : pc.owes which = true) :
    act.pc.owes which = true ∨ act.effect = .notify which := by
  cases takes with
  | notify site =>
      cases site with
      | kick writer ticket => cases owes
      | stopReaders =>
          cases which with
          | writer => exact .inr rfl
          | readerDone => exact .inl rfl
      | published sequence | released | unregistered lastSeenSeq block | stopWriters =>
          cases which with
          | writer => first | exact .inr rfl | cases owes
          | readerDone => first | exact .inr rfl | cases owes
  | wake site =>
      cases site with
      | stopReaders =>
          cases which with
          | writer => cases owes
          | readerDone => exact .inl rfl
      | _ => cases owes
  | panic site at_ membership => rcases at_ with rfl | ⟨packed, rfl⟩ <;> cases owes
  | unchanged size at_ same => rcases at_ with rfl | ⟨packed, rfl⟩ <;> cases owes
  | unchangedTarget count at_ same => rcases at_ with rfl | ⟨packed, rfl⟩ <;> cases owes
  | compute site at_ => rcases at_ with rfl | ⟨packed, rfl⟩ <;> cases owes
  | _ => cases owes

/-- Only the wake of a condition variable wakes it. -/
theorem Takes.waking {msg : SharedMessage} {pc : Pc} {act : Act} (takes : Takes msg pc act)
    {which : Condvar} (waking : pc.waking = some which) : act.effect = .wake which := by
  cases takes with
  | wake site =>
      cases waking
      rfl
  | panic site at_ membership => rcases at_ with rfl | ⟨packed, rfl⟩ <;> cases waking
  | unchanged size at_ same => rcases at_ with rfl | ⟨packed, rfl⟩ <;> cases waking
  | unchangedTarget count at_ same => rcases at_ with rfl | ⟨packed, rfl⟩ <;> cases waking
  | compute site at_ => rcases at_ with rfl | ⟨packed, rfl⟩ <;> cases waking
  | _ => cases waking

/-- Counting up a condition variable is the first half of `notify_all`. -/
theorem Takes.waking_of_notify {msg : SharedMessage} {pc : Pc} {act : Act}
    (takes : Takes msg pc act) {which : Condvar} (effect : act.effect = .notify which) :
    act.pc.waking = some which := by
  cases takes with
  | notify site =>
      cases effect
      rfl
  | _ => cases effect

/-- A ticket is kept, or it is the current count. -/
theorem Takes.ticket {msg : SharedMessage} {pc : Pc} {act : Act} (takes : Takes msg pc act)
    {which : Condvar} {ticket : Nat} (holds : act.pc.ticket = some (which, ticket)) :
    pc.ticket = some (which, ticket) ∨ ticket = msg.notified which := by
  cases takes with
  | firstWait writer readerState pending =>
      cases holds
      exact .inr rfl
  | nextTicket writer =>
      cases holds
      exact .inr rfl
  | drainTicket writer =>
      cases holds
      exact .inr rfl
  | readTicket lastSeenSeq block =>
      cases holds
      exact .inr rfl
  | invoke operation => cases operation <;> cases holds
  | waitReturns site other spins changed | wakeUp site other => cases site <;> cases holds
  | wake site =>
      cases site with
      | kick writer other => exact .inl holds
      | _ => cases holds
  | notify site =>
      cases site with
      | kick writer other => exact .inl holds
      | _ => cases holds
  | update site policy run =>
      cases site with
      | release sequence =>
          simp only [UpdateSite.after] at holds
          split at holds <;> cases holds
      | _ => cases holds
  | kick writer other running | nextWait writer other pending | drainBusy writer other busy
  | drainWait writer other running | readWait lastSeenSeq block other reason
  | spin site other spins same | park site other same => exact .inl holds
  | _ => cases holds

/-- A party parks only at the end of its spin phase, on an unchanged value. -/
theorem Takes.parked {msg : SharedMessage} {pc : Pc} {act : Act} (takes : Takes msg pc act)
    {site : WaitSite} {ticket : Nat} (parked : act.pc = .parked site ticket) :
    pc = .wait site ticket 0 ∧
      (msg.condvar site.condvar).value = SharedCondvar.word ticket ∧ act.effect = .observe := by
  cases takes with
  | park other ticket same =>
      cases parked
      exact ⟨rfl, same, rfl⟩
  | invoke operation => cases operation <;> cases parked
  | waitReturns other ticket spins changed | wakeUp other ticket => cases other <;> cases parked
  | wake other => cases other <;> cases parked
  | update other policy run =>
      cases other with
      | release sequence =>
          simp only [UpdateSite.after] at parked
          split at parked <;> cases parked
      | _ => cases parked
  | _ => cases parked

theorem Effect.le_notified_apply (effect : Effect) (msg : SharedMessage) (which : Condvar) :
    msg.notified which ≤ (effect.apply msg).notified which := by
  rw [Effect.notified_apply]
  split
  · split
    · exact Nat.le_succ _
    · exact Nat.le_refl _
  · exact Nat.le_refl _

/-! ## Debts along a run -/

section Runs

variable {ι : Type u} [DecidableEq ι] {targetRead consumers : BitVec 16}

/-- Some party owes a notification. -/
def State.Owed (state : State ι) (which : Condvar) : Prop :=
  ∃ party, (state.pc party).owes which = true

/-- Some party has counted up the condition variable and not yet woken it. -/
def State.Waking (state : State ι) (which : Condvar) : Prop :=
  ∃ party, (state.pc party).waking = some which

omit [DecidableEq ι] in
instance [Fintype ι] (state : State ι) (which : Condvar) : Decidable (state.Owed which) :=
  inferInstanceAs (Decidable (∃ party, (state.pc party).owes which = true))

omit [DecidableEq ι] in
instance [Fintype ι] (state : State ι) (which : Condvar) : Decidable (state.Waking which) :=
  inferInstanceAs (Decidable (∃ party, (state.pc party).waking = some which))

/-- A step leaves a debt, or it pays it. -/
theorem owes_of_step {source target : State ι} {party other : ι} {choice : Choice}
    (step : source.step (party, choice) = some target) {which : Condvar}
    (owes : (source.pc other).owes which = true) :
    (target.pc other).owes which = true ∨
      other = party ∧ target.msg.notified which = source.msg.notified which + 1 := by
  obtain ⟨act, next, rfl⟩ := State.step_eq_some_iff.mp step
  rw [State.view_perform (Pc.owes · which) (WaitSite.owes_resume which)]
  by_cases here : other = party
  · subst here
    rw [if_pos rfl]
    rcases (next_takes next).owes owes with kept | paid
    · exact .inl kept
    · right
      rw [State.perform_msg, Effect.notified_apply, paid]
      exact ⟨rfl, if_pos rfl⟩
  · rw [if_neg here]
    exact .inl owes

/-- A debt is still open while the count has not moved. -/
theorem owed_of_step {source target : State ι} {party : ι} {choice : Choice}
    (step : source.step (party, choice) = some target) {which : Condvar} (owed : source.Owed which)
    (same : target.msg.notified which = source.msg.notified which) : target.Owed which := by
  obtain ⟨debtor, owes⟩ := owed
  rcases owes_of_step step owes with kept | ⟨_, paid⟩
  · exact ⟨debtor, kept⟩
  · omega

/-- Within the run the party itself counts up the condition variable. -/
def Notifies (party : ι) (which : Condvar) (source : State ι) (labels : List (ι × Choice)) : Prop :=
  ∃ before choice after middle next, labels = before ++ (party, choice) :: after ∧
    (zeroed ι).exec source before = some middle ∧
      middle.step (party, choice) = some next ∧
        next.msg.notified which = middle.msg.notified which + 1

/-- In every run after which a party no longer owes a notification, it has made it. -/
theorem notifies_of_owes {source target : State ι} {labels : List (ι × Choice)} {party : ι}
    {which : Condvar} (owes : (source.pc party).owes which = true)
    (run : (zeroed ι).exec source labels = some target)
    (settled : (target.pc party).owes which = false) : Notifies party which source labels := by
  induction labels generalizing source with
  | nil =>
      cases run
      exact absurd (owes.symm.trans settled) (by decide)
  | cons label labels ih =>
      obtain ⟨actor, choice⟩ := label
      obtain ⟨next, step, rest⟩ := Option.bind_eq_some_iff.mp run
      rcases owes_of_step step owes with kept | ⟨rfl, paid⟩
      · obtain ⟨before, chosen, after, middle, final, rfl, reach, notify, count⟩ := ih kept rest
        refine ⟨(actor, choice) :: before, chosen, after, middle, final, rfl, ?_, notify, count⟩
        exact Option.bind_eq_some_iff.mpr ⟨next, step, reach⟩
      · exact ⟨[], choice, labels, source, next, rfl, rfl, step, paid⟩

/-! ## Current tickets -/

/-- A ticket after a step is at most the count before it. -/
theorem ticket_le_of_step {source target : State ι} {party other : ι} {choice : Choice}
    (below : ∀ party which ticket, (source.pc party).ticket = some (which, ticket) →
      ticket ≤ source.msg.notified which)
    (step : source.step (party, choice) = some target) {which : Condvar} {ticket : Nat}
    (holds : (target.pc other).ticket = some (which, ticket)) :
    ticket ≤ source.msg.notified which := by
  obtain ⟨act, next, rfl⟩ := State.step_eq_some_iff.mp step
  by_cases here : other = party
  · subst here
    rw [State.perform_pc_self] at holds
    rcases (next_takes next).ticket holds with before | current
    · exact below other which ticket before
    · exact Nat.le_of_eq current
  · rw [State.perform_pc_of_ne source here] at holds
    rw [Pc.after_self Pc.ticket WaitSite.ticket_resume holds] at holds
    exact below other which ticket holds

theorem notified_le_of_step {source target : State ι} {label : ι × Choice}
    (step : source.step label = some target) (which : Condvar) :
    source.msg.notified which ≤ target.msg.notified which := by
  obtain ⟨act, next, rfl⟩ := State.step_eq_some_iff.mp step
  exact act.effect.le_notified_apply source.msg which

/-- A ticket is never ahead of the count. -/
theorem ticket_le {state : State ι} (reachable : (system ι targetRead consumers).Reachable state)
    (party : ι) (which : Condvar) (ticket : Nat)
    (holds : (state.pc party).ticket = some (which, ticket)) : ticket ≤ state.msg.notified which := by
  refine reachable.invariant (fun state => ∀ party which ticket,
    (state.pc party).ticket = some (which, ticket) → ticket ≤ state.msg.notified which)
    ?_ ?_ party which ticket holds
  · rintro _ ⟨capacity, rfl⟩ party which ticket holds
    cases holds
  · rintro source ⟨party, choice⟩ target _ below step _ other which ticket holds
    exact Nat.le_trans (ticket_le_of_step below step holds) (notified_le_of_step step which)

/-- A ticket that is current after a step was read at the same count. -/
theorem notified_same_of_step {source target : State ι} {party other : ι} {choice : Choice}
    (reachable : (system ι targetRead consumers).Reachable source)
    (step : source.step (party, choice) = some target) {which : Condvar}
    (holds : (target.pc other).ticket = some (which, target.msg.notified which)) :
    target.msg.notified which = source.msg.notified which :=
  Nat.le_antisymm (ticket_le_of_step (ticket_le reachable) step holds)
    (notified_le_of_step step which)

/-- The condition variable and the ticket of the comparison that parks. -/
def Pc.comparing : Pc → Option (Condvar × Nat)
  | .wait site ticket 0 => some (site.condvar, ticket)
  | _ => none

/-- Fewer than `2 ^ 32` notifications are made between the reading of a ticket
and the comparison that parks on it. -/
def Timely : StepCondition (State ι) (ι × Choice) :=
  fun source label _ => ∀ compared ∈ (source.pc label.1).comparing,
    source.msg.notified compared.1 < compared.2 + 2 ^ 32

omit [DecidableEq ι] in
instance (source : State ι) (label : ι × Choice) (target : State ι) :
    Decidable (Timely source label target) :=
  Option.decidableForallMem _

/-- Equal values of the word are equal counts, if they are less than `2 ^ 32` apart. -/
theorem SharedCondvar.eq_of_word_eq {notified ticket : Nat} (same : word notified = word ticket)
    (le : ticket ≤ notified) (close : notified < ticket + 2 ^ 32) : ticket = notified := by
  have congruent := congrArg BitVec.toNat same
  rw [word, word, BitVec.toNat_ofNat, BitVec.toNat_ofNat] at congruent
  omega

/-- A sleeper's ticket is current, or it is about to be woken. -/
theorem current_or_waking {state : State ι}
    (reachable : (system ι targetRead consumers).ReachableVia Timely state) {party : ι}
    {site : WaitSite} {ticket : Nat} (parked : state.pc party = .parked site ticket) :
    ticket = state.msg.notified site.condvar ∨ state.Waking site.condvar := by
  refine reachable.invariant (fun state => ∀ party site ticket,
    state.pc party = .parked site ticket →
      ticket = state.msg.notified site.condvar ∨ state.Waking site.condvar)
    ?_ ?_ party site ticket parked
  · rintro _ ⟨capacity, rfl⟩ party site ticket parked
    cases parked
  · rintro source ⟨party, choice⟩ target before current step timely other site ticket parked
    obtain ⟨act, next, rfl⟩ := State.step_eq_some_iff.mp step
    by_cases here : other = party
    · subst here
      rw [State.perform_pc_self] at parked
      obtain ⟨waits, same, effect⟩ := (next_takes next).parked parked
      have le : ticket ≤ source.msg.notified site.condvar :=
        ticket_le before.reachable other _ _ (by rw [waits]; rfl)
      have close := timely (site.condvar, ticket) (by rw [waits]; rfl)
      left
      rw [State.perform_msg, effect]
      exact SharedCondvar.eq_of_word_eq same le close
    · rw [State.perform_pc_of_ne source here] at parked
      obtain ⟨before, notWoken⟩ := Pc.parked_of_after parked
      rcases current other site ticket before with now | ⟨waker, waking⟩
      · by_cases notifies : act.effect = .notify site.condvar
        · right
          refine ⟨party, ?_⟩
          rw [State.perform_pc_self]
          exact (next_takes next).waking_of_notify notifies
        · left
          rw [State.perform_msg, Effect.notified_apply]
          split
          · rename_i which effect
            rw [if_neg]
            · exact now
            · rintro rfl
              exact notifies effect
          · exact now
      · right
        refine ⟨waker, ?_⟩
        rw [State.view_perform Pc.waking WaitSite.waking_resume]
        by_cases itself : waker = party
        · subst itself
          exact absurd ((next_takes next).waking waking) notWoken
        · rw [if_neg itself]
          exact waking

/-! ## The spin phase -/

theorem State.perform_goto_self {state : State ι} {party : ι} {pc : Pc}
    (at_ : state.pc party = pc) : state.perform party (.goto pc) = state := by
  subst at_
  obtain ⟨msg, pc, log⟩ := state
  simp only [State.perform, State.mk.injEq]
  refine ⟨rfl, funext fun other => ?_, by simp⟩
  by_cases here : other = party <;> simp [here, Pc.after]

theorem step_spin {state : State ι} {party : ι} {site : WaitSite} {ticket spins : Nat} {next : Pc}
    (waits : state.pc party = .wait site ticket spins)
    (taken : waitStep state.msg site ticket spins = .goto next) :
    state.step (party, .go) = some (state.perform party (.goto next)) :=
  State.step_eq_some_iff.mpr ⟨.goto next, by rw [waits, ← taken]; rfl, rfl⟩

/-- While the word keeps its value, a party that waits spins to the end and parks. -/
theorem reachableVia_parked {ok : StepCondition (State ι) (ι × Choice)} {state : State ι}
    {party : ι} {site : WaitSite} {ticket spins : Nat}
    (reachable : (system ι targetRead consumers).ReachableVia ok state)
    (waits : state.pc party = .wait site ticket spins)
    (same : (state.msg.condvar site.condvar).value = SharedCondvar.word ticket)
    (meets : ∀ spins next, ok (state.perform party (.goto (.wait site ticket spins)))
      (party, .go) (state.perform party (.goto next))) :
    (system ι targetRead consumers).ReachableVia ok
      (state.perform party (.goto (.parked site ticket))) := by
  induction spins generalizing state with
  | zero =>
      have meet := meets 0 (.parked site ticket)
      rw [State.perform_goto_self waits] at meet
      exact reachable.step (step_spin waits (if_neg (not_not.mpr same))) meet
  | succ spins ih =>
      have meet := meets (spins + 1) (.wait site ticket spins)
      rw [State.perform_goto_self waits] at meet
      have spun := reachable.step (step_spin waits (if_neg (not_not.mpr same))) meet
      have parked := ih spun (State.perform_pc_self state party _) same fun spins next => by
        rw [State.perform_goto, State.perform_goto]
        exact meets spins next
      rwa [State.perform_goto] at parked

/-- A spin phase is timely if the count is close to the ticket. -/
theorem timely_spin {state target : State ι} {party : ι} {site : WaitSite} {ticket : Nat}
    (close : state.msg.notified site.condvar < ticket + 2 ^ 32) (spins : Nat) :
    Timely (state.perform party (.goto (.wait site ticket spins))) (party, .go) target := by
  intro compared comparing
  simp only [State.perform_pc_self] at comparing
  cases spins with
  | zero =>
      cases comparing
      exact close
  | succ spins => cases comparing

end Runs

end RsIpc
