import RsIpc.SharedMessage.Numbering

/-!
# What calls carry along

A call of `read` keeps the sequence number it was given and, once it has seen a
new message, the number of that message.  A call that has published keeps the
number it is going to return.  Each of these is a view of the program point,
and a step changes it only where the source does.
-/

namespace RsIpc

open Transition

universe u

def Outcome.returned : Outcome → Option (BitVec 64)
  | .sequence number => some number
  | _ => .none

/-- The number that a call is going to return, from its exchange on. -/
def Pc.returning : Pc → Option (BitVec 64)
  | .notify (.published sequence) | .wake (.published sequence) => some sequence
  | .abandon outcome | .unlock outcome | .done outcome => outcome.returned
  | _ => none

def WaitSite.lastSeen : WaitSite → Option (BitVec 64)
  | .reader lastSeenSeq _ => some lastSeenSeq
  | _ => none

def NotifySite.lastSeen : NotifySite → Option (BitVec 64)
  | .unregistered lastSeenSeq _ => some lastSeenSeq
  | _ => none

def UpdateSite.lastSeen : UpdateSite → Option (BitVec 64)
  | .register lastSeenSeq _ _ | .unregister lastSeenSeq _ => some lastSeenSeq
  | _ => none

/-- The argument of a call of `read`, until the call returns. -/
def Pc.lastSeen : Pc → Option (BitVec 64)
  | .readTicket lastSeenSeq _ | .readState lastSeenSeq _ _ | .verify lastSeenSeq _ _ =>
      some lastSeenSeq
  | .wait site _ _ | .parked site _ => site.lastSeen
  | .notify site | .wake site => site.lastSeen
  | .update site | .cas site _ => site.lastSeen
  | _ => none

/-- The argument with which a step calls `read`. -/
def Choice.lastSeen : Choice → Option (BitVec 64)
  | .invoke (.read lastSeenSeq _) => some lastSeenSeq
  | _ => none

def UpdateSite.candidate : UpdateSite → Option (BitVec 64)
  | .register _ _ sequence => some sequence
  | _ => none

/-- The number that a call of `read` has seen and registers for. -/
def Pc.candidate : Pc → Option (BitVec 64)
  | .verify _ _ sequence => some sequence
  | .update site | .cas site _ => site.candidate
  | _ => none

def UpdateSite.guard : UpdateSite → Option (BitVec 64)
  | .release sequence => some sequence
  | _ => none

/-- The number of the read guard that the party holds. -/
def Pc.guard : Pc → Option (BitVec 64)
  | .readGuard sequence => some sequence
  | .update site | .cas site _ => site.guard
  | _ => none

/-! ## Views and steps -/

theorem WaitSite.returning_resume (site : WaitSite) (ticket : Nat) :
    site.resume.returning = (Pc.parked site ticket).returning := by
  cases site <;> rfl

theorem WaitSite.lastSeen_resume (site : WaitSite) (ticket : Nat) :
    site.resume.lastSeen = (Pc.parked site ticket).lastSeen := by
  cases site <;> rfl

theorem WaitSite.candidate_resume (site : WaitSite) (ticket : Nat) :
    site.resume.candidate = (Pc.parked site ticket).candidate := by
  cases site <;> rfl

theorem Pc.Updating.lastSeen {pc : Pc} {site : UpdateSite} (at_ : pc.Updating site) :
    pc.lastSeen = site.lastSeen := by
  rcases at_ with rfl | ⟨packed, rfl⟩ <;> rfl

theorem Pc.Updating.candidate {pc : Pc} {site : UpdateSite} (at_ : pc.Updating site) :
    pc.candidate = site.candidate := by
  rcases at_ with rfl | ⟨packed, rfl⟩ <;> rfl

theorem WaitSite.guard_resume (site : WaitSite) (ticket : Nat) :
    site.resume.guard = (Pc.parked site ticket).guard := by
  cases site <;> rfl

theorem Pc.Updating.guard {pc : Pc} {site : UpdateSite} (at_ : pc.Updating site) :
    pc.guard = site.guard := by
  rcases at_ with rfl | ⟨packed, rfl⟩ <;> rfl

theorem Pc.phase_of_guard {pc : Pc} {sequence : BitVec 64} (guard : pc.guard = some sequence) :
    pc.phase = .admitted := by
  cases pc with
  | update site | cas site packed =>
      cases site with
      | release sequence => rfl
      | _ => cases guard
  | readGuard sequence => rfl
  | _ => cases guard

/-- Whoever is admitted holds a guard. -/
theorem Pc.guard_of_admitted {pc : Pc} (admitted : pc.phase = .admitted) :
    ∃ sequence, pc.guard = some sequence := by
  cases pc with
  | update site | cas site packed =>
      cases site with
      | release sequence => exact ⟨sequence, rfl⟩
      | _ => cases admitted
  | readGuard sequence => exact ⟨sequence, rfl⟩
  | wait site | parked site | notify site | wake site => cases site <;> cases admitted
  | _ => cases admitted

/-- A number to be returned comes from the exchange of this call. -/
theorem Takes.returning {msg : SharedMessage} {pc : Pc} {act : Act} (takes : Takes msg pc act)
    {sequence : BitVec 64} (returning : act.pc.returning = some sequence) :
    (pc.returning = some sequence ∧ act.event = none) ∨
      ∃ size, act.event = some (.published (msg.message size)) ∧
        (msg.message size).sequence = sequence := by
  cases takes with
  | exchange size =>
      right
      exact ⟨size, rfl, Option.some.inj returning⟩
  | abandon outcome | unlock outcome => exact .inl ⟨returning, rfl⟩
  | invoke operation => cases operation <;> cases returning
  | waitReturns site ticket spins changed | wakeUp site ticket =>
      cases site <;> cases returning
  | wake site =>
      cases site with
      | published other => exact .inl ⟨returning, rfl⟩
      | _ => cases returning
  | notify site =>
      cases site with
      | published other => exact .inl ⟨returning, rfl⟩
      | _ => cases returning
  | update site policy run =>
      cases site with
      | release other =>
          simp only [UpdateSite.after] at returning
          split at returning <;> cases returning
      | _ => cases returning
  | _ => cases returning

/-- A call of `read` keeps its argument. -/
theorem Takes.lastSeen {msg : SharedMessage} {pc : Pc} {act : Act} (takes : Takes msg pc act)
    {lastSeenSeq : BitVec 64} (seen : act.pc.lastSeen = some lastSeenSeq) :
    pc.lastSeen = some lastSeenSeq ∨
      pc = .idle ∧ ∃ block, act = .goto (.readTicket lastSeenSeq block) := by
  cases takes with
  | invoke operation =>
      right
      cases operation with
      | read other block =>
          cases seen
          exact ⟨rfl, block, rfl⟩
      | _ => cases seen
  | waitReturns site ticket spins changed | wakeUp site ticket =>
      left
      cases site <;> exact seen
  | spin site ticket spins same | park site ticket same | notify site => exact .inl seen
  | wake site =>
      left
      cases site with
      | unregistered other block => exact seen
      | _ => cases seen
  | compute site at_ =>
      left
      rw [at_.lastSeen]
      exact seen
  | update site policy run =>
      left
      cases site with
      | release other =>
          simp only [UpdateSite.after] at seen
          split at seen <;> cases seen
      | register other block sequence | unregister other block => exact seen
      | _ => cases seen
  | readTicket other block | readWait other block ticket reason | readNew other block ticket new down
  | verifyFails other block sequence => exact .inl seen
  | _ => cases seen

/-- A call of `read` registers only for a number other than its argument. -/
def Pc.Fresh (pc : Pc) : Prop :=
  ∀ sequence, pc.candidate = some sequence → pc.lastSeen ≠ some sequence

theorem Takes.fresh {msg : SharedMessage} {pc : Pc} {act : Act} (takes : Takes msg pc act)
    (fresh : pc.Fresh) : act.pc.Fresh := by
  intro sequence candidate
  cases takes with
  | invoke operation => cases operation <;> cases candidate
  | waitReturns site ticket spins changed | wakeUp site ticket => cases site <;> cases candidate
  | wake site => cases site <;> cases candidate
  | compute site at_ =>
      have before := fresh sequence (at_.candidate.trans candidate)
      rwa [at_.lastSeen] at before
  | update site policy run =>
      cases site with
      | register other block registered => exact fresh sequence candidate
      | release other =>
          simp only [UpdateSite.after] at candidate
          split at candidate <;> cases candidate
      | _ => cases candidate
  | readNew other block ticket new down =>
      cases candidate
      intro same
      exact new (Option.some.inj same).symm
  | _ => cases candidate

/-- A guard is kept, or obtained by the load that verified it. -/
theorem Takes.guard {msg : SharedMessage} {pc : Pc} {act : Act} (takes : Takes msg pc act)
    {sequence : BitVec 64} (guard : act.pc.guard = some sequence) :
    pc.guard = some sequence ∨ (msg.getSequenceState.writingInProgress = false ∧
      msg.currentSequence = sequence ∧ act.event = some (.admitted sequence) ∧
        ∃ lastSeenSeq block, pc = .verify lastSeenSeq block sequence) := by
  cases takes with
  | granted lastSeenSeq block sequence down same =>
      cases guard
      exact .inr ⟨down, same, rfl, lastSeenSeq, block, rfl⟩
  | dropRead sequence => exact .inl guard
  | compute site at_ => exact .inl (at_.guard.trans guard)
  | invoke operation => cases operation <;> cases guard
  | waitReturns site ticket spins changed | wakeUp site ticket => cases site <;> cases guard
  | wake site => cases site <;> cases guard
  | update site policy run =>
      cases site with
      | release other =>
          simp only [UpdateSite.after] at guard
          split at guard <;> cases guard
      | _ => cases guard
  | _ => cases guard

/-- A call of `read` registers for the number it loaded. -/
theorem Takes.candidate {msg : SharedMessage} {pc : Pc} {act : Act} (takes : Takes msg pc act)
    {sequence : BitVec 64} (candidate : act.pc.candidate = some sequence) :
    pc.candidate = some sequence ∨ (msg.currentSequence = sequence ∧
      ∃ lastSeenSeq, pc.lastSeen = some lastSeenSeq ∧ lastSeenSeq ≠ sequence) := by
  cases takes with
  | readNew lastSeenSeq block ticket new down =>
      cases candidate
      exact .inr ⟨rfl, lastSeenSeq, rfl, new.symm⟩
  | compute site at_ => exact .inl (at_.candidate.trans candidate)
  | invoke operation => cases operation <;> cases candidate
  | waitReturns site ticket spins changed | wakeUp site ticket => cases site <;> cases candidate
  | wake site => cases site <;> cases candidate
  | update site policy run =>
      cases site with
      | register other block registered => exact .inl candidate
      | release other =>
          simp only [UpdateSite.after] at candidate
          split at candidate <;> cases candidate
      | _ => cases candidate
  | _ => cases candidate

section Runs

variable {ι : Type u} [DecidableEq ι]

/-- The argument of a call in progress was there before the step, or the step is
the call. -/
theorem lastSeen_of_step {source target : State ι} {party other : ι} {choice : Choice}
    {lastSeenSeq : BitVec 64} (step : source.step (party, choice) = some target)
    (seen : (target.pc other).lastSeen = some lastSeenSeq) :
    (source.pc other).lastSeen = some lastSeenSeq ∨
      other = party ∧ target.log = source.log ∧
        ∃ block, choice = .invoke (.read lastSeenSeq block) := by
  obtain ⟨act, next, rfl⟩ := State.step_eq_some_iff.mp step
  by_cases here : other = party
  · subst here
    rw [State.perform_pc_self] at seen
    rcases (next_takes next).lastSeen seen with before | ⟨idle, block, rfl⟩
    · exact .inl before
    · rw [idle] at next
      obtain ⟨operation, rfl, start⟩ := next_idle next
      right
      refine ⟨rfl, List.append_nil _, block, ?_⟩
      cases operation <;> cases start
      rfl
  · rw [State.view_perform Pc.lastSeen WaitSite.lastSeen_resume, if_neg here] at seen
    exact .inl seen

end Runs

end RsIpc
