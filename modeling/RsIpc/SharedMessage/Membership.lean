import RsIpc.SharedMessage.Exclusion
import RsIpc.SharedMessage.Sequencing

/-!
# Registered consumers

A consumer registers, reads with the number of its last guard while it is
registered, and leaves.  The word counts the registered consumers, and since
only they read, the active count cannot overflow.
-/

namespace RsIpc

open Protocol Protocol.Handshake Transition

universe u

variable {ι : Type u}

/-! ## Who is registered -/

section Enrolled

variable [DecidableEq ι] (initially : ι → Bool)

/-- Whether a party is registered after the history. -/
def History.enrolled (log : List (ι × Event)) (party : ι) : Bool :=
  log.foldl (fun enrolled entry =>
    if entry.1 = party then
      match entry.2 with
      | .joined => true
      | .left => false
      | _ => enrolled
    else enrolled) (initially party)

theorem History.enrolled_perform_of_ne (state : State ι) {party other : ι} (ne : other ≠ party)
    (act : Act) : enrolled initially (state.perform party act).log other =
      enrolled initially state.log other := by
  rw [State.perform_log, enrolled, List.foldl_append]
  cases act.event with
  | none => rfl
  | some event => exact if_neg ne.symm

theorem History.enrolled_perform_self (state : State ι) (party : ι) (act : Act) :
    enrolled initially (state.perform party act).log party =
      match act.event with
      | some .joined => true
      | some .left => false
      | _ => enrolled initially state.log party := by
  rw [State.perform_log, enrolled, List.foldl_append]
  cases act.event with
  | none => rfl
  | some event => cases event <;> exact if_pos rfl

/-- Whoever neither joins nor leaves stays what it was. -/
theorem History.enrolled_perform_quiet (state : State ι) (party : ι) {act : Act}
    (notJoined : act.event ≠ some .joined) (notLeft : act.event ≠ some .left) :
    enrolled initially (state.perform party act).log party =
      enrolled initially state.log party := by
  rw [enrolled_perform_self]
  split
  · rename_i joined
    exact absurd joined notJoined
  · rename_i left
    exact absurd left notLeft
  · rfl

end Enrolled

/-! ## Views -/

def UpdateSite.member : UpdateSite → Option Bool
  | .addReader => some false
  | .removeReader | .register _ _ _ | .unregister _ _ | .release _ => some true
  | .resetConsumed _ | .setTarget _ => none

/-- Whether a party at this point is registered, where the call it is in says so. -/
def Pc.member : Pc → Option Bool
  | .readTicket _ _ | .readState _ _ _ | .verify _ _ _ | .readGuard _ => some true
  | .wait (.reader _ _) _ _ | .parked (.reader _ _) _ => some true
  | .notify (.unregistered _ _) | .wake (.unregistered _ _) => some true
  | .update site | .cas site _ => site.member
  | _ => none

/-- Whether a call is one of a registered consumer, or of one that is not. -/
def Choice.member : Choice → Option Bool
  | .invoke (.read _ _) | .invoke .removeReader => some true
  | .invoke .addReader => some false
  | _ => none

theorem WaitSite.member_resume (site : WaitSite) (ticket : Nat) :
    site.resume.member = (Pc.parked site ticket).member := by
  cases site <;> rfl

theorem Pc.Updating.member {pc : Pc} {site : UpdateSite} (at_ : pc.Updating site) :
    pc.member = site.member := by
  rcases at_ with rfl | ⟨packed, rfl⟩ <;> rfl

theorem Pc.member_of_reads {pc : Pc} (reads : pc.phase.Reads) : pc.member = some true := by
  cases pc with
  | verify lastSeenSeq block sequence | readGuard sequence => rfl
  | update site | cas site packed =>
      cases site <;> first | rfl | (rcases reads with reads | reads <;> cases reads)
  | wait site ticket spins | parked site ticket =>
      cases site <;> rcases reads with reads | reads <;> cases reads
  | notify site | wake site =>
      cases site <;> rcases reads with reads | reads <;> cases reads
  | _ => rcases reads with reads | reads <;> cases reads

/-- A call keeps its view of the registration and does not change it, or it starts. -/
theorem Takes.member {msg : SharedMessage} {pc : Pc} {act : Act} (takes : Takes msg pc act)
    {registered : Bool} (member : act.pc.member = some registered) :
    act.event ≠ some .joined ∧ act.event ≠ some .left ∧
      (pc.member = some registered ∨ pc = .idle) := by
  cases takes with
  | invoke operation => exact ⟨nofun, nofun, .inr rfl⟩
  | readTicket lastSeenSeq block | readWait lastSeenSeq block ticket reason
  | readNew lastSeenSeq block ticket new down | verifyFails lastSeenSeq block sequence
  | granted lastSeenSeq block sequence down same | dropRead sequence =>
      exact ⟨nofun, nofun, .inl member⟩
  | compute site at_ => exact ⟨nofun, nofun, .inl (at_.member.trans member)⟩
  | waitReturns site ticket spins changed | wakeUp site ticket =>
      cases site with
      | reader lastSeenSeq block => exact ⟨nofun, nofun, .inl member⟩
      | _ => cases member
  | spin site ticket spins same | park site ticket same =>
      cases site with
      | reader lastSeenSeq block => exact ⟨nofun, nofun, .inl member⟩
      | _ => cases member
  | notify site =>
      cases site with
      | unregistered lastSeenSeq block => exact ⟨nofun, nofun, .inl member⟩
      | _ => cases member
  | wake site =>
      cases site with
      | unregistered lastSeenSeq block => exact ⟨nofun, nofun, .inl member⟩
      | _ => cases member
  | update site policy run =>
      cases site with
      | register lastSeenSeq block sequence | unregister lastSeenSeq block =>
          exact ⟨nofun, nofun, .inl member⟩
      | release sequence =>
          simp only [UpdateSite.after] at member
          split at member <;> cases member
      | _ => cases member
  | _ => cases member

/-- A step leaves the registered consumers alone, or one joins, or one leaves. -/
theorem Takes.membership {msg : SharedMessage} {pc : Pc} {act : Act} (takes : Takes msg pc act) :
    ((act.effect.apply msg).getReaderState.consumers = msg.getReaderState.consumers ∧
      act.event ≠ some .joined ∧ act.event ≠ some .left) ∨
    (pc.member = some false ∧ act.event = some .joined ∧
      (act.effect.apply msg).getReaderState.consumers.toNat =
        msg.getReaderState.consumers.toNat + 1) ∨
    (pc.member = some true ∧ act.event = some .left ∧
      (act.effect.apply msg).getReaderState.consumers.toNat + 1 =
        msg.getReaderState.consumers.toNat) := by
  cases takes with
  | update site policy run =>
      rw [Effect.getReaderState_apply]
      simp only [run, Option.getD_some]
      cases site with
      | addReader =>
          right
          left
          simp only [UpdateSite.mutator, Mutator.run, Option.ite_none_left_eq_some,
            Option.some.injEq] at run
          obtain ⟨room, rfl⟩ := run
          have max : (BitVec.allOnes 16).toNat = 65535 := BitVec.toNat_allOnes
          exact ⟨rfl, rfl, by bv_omega⟩
      | removeReader =>
          right
          right
          simp only [UpdateSite.mutator, Mutator.run, Option.ite_none_left_eq_some,
            Option.some.injEq] at run
          obtain ⟨some, rfl⟩ := run
          exact ⟨rfl, rfl, by bv_omega⟩
      | _ =>
          cases run
          exact .inl ⟨rfl, (fun is => by cases is), (fun is => by cases is)⟩
  | notify site =>
      left
      rw [Effect.getReaderState_apply]
      exact ⟨rfl, (fun is => by cases is), (fun is => by cases is)⟩
  | _ => exact .inl ⟨rfl, (fun is => by cases is), (fun is => by cases is)⟩

/-! ## Disciplined runs -/

section Runs

variable [DecidableEq ι] {targetRead consumers : BitVec 16}

/-- Consumers register once at a time, and read and leave only while they are
registered; each call of `read` passes the number of the party's last guard. -/
def Disciplined (initially : ι → Bool) : StepCondition (State ι) (ι × Choice) :=
  fun source label _ =>
    (∀ registered ∈ label.2.member,
      History.enrolled initially source.log label.1 = registered) ∧
    ∀ lastSeenSeq ∈ label.2.lastSeen,
      lastSeenSeq = History.lastAdmitted (· = label.1) source.log

instance (initially : ι → Bool) (source : State ι) (label : ι × Choice) (target : State ι) :
    Decidable (Disciplined initially source label target) :=
  have : Decidable (∀ registered ∈ label.2.member,
      History.enrolled initially source.log label.1 = registered) :=
    Option.decidableForallMem _
  have : Decidable (∀ lastSeenSeq ∈ label.2.lastSeen,
      lastSeenSeq = History.lastAdmitted (· = label.1) source.log) :=
    Option.decidableForallMem _
  inferInstanceAs (Decidable (_ ∧ _))

variable {initially : ι → Bool} {state : State ι}

theorem Operation.member_start (operation : Operation) :
    operation.start.member = (Choice.invoke operation).member := by
  cases operation <;> rfl

/-- In a disciplined run a call knows whether its party is registered. -/
theorem enrolled_of_member
    (reachable : (system ι targetRead consumers).ReachableVia (Disciplined initially) state)
    {party : ι} {registered : Bool} (member : (state.pc party).member = some registered) :
    History.enrolled initially state.log party = registered := by
  refine reachable.invariant (fun state => ∀ party registered,
    (state.pc party).member = some registered →
      History.enrolled initially state.log party = registered) ?_ ?_ party registered member
  · rintro _ ⟨capacity, rfl⟩ party registered member
    cases member
  · rintro source ⟨party, choice⟩ target _ known step disciplined other registered member
    obtain ⟨act, next, rfl⟩ := State.step_eq_some_iff.mp step
    rw [State.view_perform Pc.member WaitSite.member_resume] at member
    split at member
    · rename_i here
      subst here
      obtain ⟨notJoined, notLeft, before⟩ := (next_takes next).member member
      rw [History.enrolled_perform_quiet initially source other notJoined notLeft]
      rcases before with before | idle
      · exact known other registered before
      · rw [idle] at next
        obtain ⟨operation, rfl, rfl⟩ := next_idle next
        exact disciplined.1 registered (operation.member_start.symm.trans member)
    · rename_i ne
      rw [History.enrolled_perform_of_ne initially source ne]
      exact known other registered member

/-- Each party follows its own guards. -/
theorem Disciplined.follows {source target : State ι} {label : ι × Choice}
    (step : source.step label = some target) (disciplined : Disciplined initially source label target)
    (party : ι) : Follows (· = party) source label target := by
  intro lastSeenSeq seen here
  subst here
  refine ⟨disciplined.2 lastSeenSeq seen, ?_⟩
  rintro other rfl
  obtain ⟨act, next, _⟩ := State.step_eq_some_iff.mp step
  cases pc : source.pc label.1 with
  | idle => rfl
  | _ =>
      rw [pc] at next
      obtain ⟨_, choice⟩ := label
      cases choice with
      | invoke operation => cases next
      | _ => cases seen

variable [Fintype ι]

/-- The word counts the registered consumers. -/
theorem consumers_eq_count (counted : consumers.toNat = count fun party => initially party = true)
    (reachable : (system ι targetRead consumers).ReachableVia (Disciplined initially) state) :
    state.msg.getReaderState.consumers.toNat =
      count fun party => History.enrolled initially state.log party = true := by
  refine reachable.invariant (fun state => state.msg.getReaderState.consumers.toNat =
    count fun party => History.enrolled initially state.log party = true) ?_ ?_
  · rintro _ ⟨capacity, rfl⟩
    rw [State.fresh_getReaderState]
    exact counted
  · rintro source ⟨party, choice⟩ target before same step disciplined
    obtain ⟨act, next, rfl⟩ := State.step_eq_some_iff.mp step
    have others : ∀ other, other ≠ party →
        (History.enrolled initially source.log other = true ↔
          History.enrolled initially (source.perform party act).log other = true) := by
      intro other ne
      rw [History.enrolled_perform_of_ne initially source ne]
    have change := count_change others
    have self := History.enrolled_perform_self initially source party act
    rw [State.perform_msg]
    rcases (next_takes next).membership with
      ⟨words, notJoined, notLeft⟩ | ⟨member, joined, words⟩ | ⟨member, left, words⟩
    · have kept : History.enrolled initially (source.perform party act).log party =
          History.enrolled initially source.log party :=
        History.enrolled_perform_quiet initially source party notJoined notLeft
      rw [kept] at change
      rw [words, same]
      exact (Nat.add_right_cancel change).symm
    · have absent := enrolled_of_member before member
      rw [joined] at self
      rw [self, absent, if_pos rfl, if_neg Bool.false_ne_true] at change
      rw [words, same]
      exact change.symm
    · have present := enrolled_of_member before member
      rw [left] at self
      rw [self, present, if_pos rfl, if_neg Bool.false_ne_true] at change
      rw [same] at words
      omega

/-- Only registered consumers have registrations outstanding. -/
theorem registrations_le_of_disciplined
    (counted : consumers.toNat = count fun party => initially party = true)
    (reachable : (system ι targetRead consumers).ReachableVia (Disciplined initially) state) :
    state.registrations ≤ 65535 := by
  have enrolled : state.registrations ≤
      count fun party => History.enrolled initially state.log party = true :=
    count_le_of_imp fun party reads => enrolled_of_member reachable (Pc.member_of_reads reads)
  rw [← consumers_eq_count counted reachable] at enrolled
  have bound := state.msg.getReaderState.consumers.isLt
  omega

/-- Disciplined runs are bounded. -/
theorem bounded_of_disciplined
    (counted : consumers.toNat = count fun party => initially party = true)
    (reachable : (system ι targetRead consumers).ReachableVia (Disciplined initially) state) :
    (system ι targetRead consumers).ReachableVia Bounded state :=
  reachable.refine fun before step disciplined =>
    registrations_le_of_disciplined counted (before.step step disciplined)

end Runs

end RsIpc
