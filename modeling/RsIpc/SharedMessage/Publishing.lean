import RsIpc.SharedMessage.Calls
import RsIpc.SharedMessage.Exclusion

/-!
# What a publish publishes

Between the store of the size and the exchange, the buffer and the size belong
to the publishing party, so the exchange publishes exactly the bytes that a
reader of the two words would see.
-/

namespace RsIpc

open Protocol.Handshake Transition

universe u

def UpdateSite.publishing : UpdateSite → Option Nat
  | .resetConsumed size => some size
  | _ => none

/-- The size that a call of `publish_write` was given. -/
def Pc.publishing : Pc → Option Nat
  | .update site | .cas site _ => site.publishing
  | .loadPacked size | .exchange size _ => some size
  | _ => none

/-- The data that `write_slice` is copying. -/
def Pc.copying : Pc → Option (List UInt8)
  | .copy newData _ => some newData
  | _ => none

theorem WaitSite.publishing_resume (site : WaitSite) (ticket : Nat) :
    site.resume.publishing = (Pc.parked site ticket).publishing := by
  cases site <;> rfl

theorem WaitSite.copying_resume (site : WaitSite) (ticket : Nat) :
    site.resume.copying = (Pc.parked site ticket).copying := by
  cases site <;> rfl

theorem Pc.Updating.publishing {pc : Pc} {site : UpdateSite} (at_ : pc.Updating site) :
    pc.publishing = site.publishing := by
  rcases at_ with rfl | ⟨packed, rfl⟩ <;> rfl

theorem Pc.phase_of_publishing {pc : Pc} {size : Nat} (publishing : pc.publishing = some size) :
    pc.phase = .writing := by
  cases pc with
  | update site | cas site packed =>
      cases site with
      | resetConsumed size => rfl
      | _ => cases publishing
  | loadPacked size | exchange size oldPacked => rfl
  | _ => cases publishing

/-- The size of a publish is the one stored on entry. -/
theorem Takes.publishing {msg : SharedMessage} {pc : Pc} {act : Act} (takes : Takes msg pc act)
    {size : Nat} (publishing : act.pc.publishing = some size) :
    (pc.publishing = some size ∧ (act.effect.apply msg).dataSize = msg.dataSize) ∨
      act.effect = .storeSize size ∧
        (size ≤ msg.capacity ∨ ∃ newData, pc.copying = some newData ∧ newData.length = size) := by
  cases takes with
  | copied newData index bound =>
      cases publishing
      exact .inr ⟨rfl, .inr ⟨newData, rfl, rfl⟩⟩
  | publish size fits =>
      cases publishing
      exact .inr ⟨rfl, .inl fits⟩
  | loadPacked size | exchangeFails size oldPacked => exact .inl ⟨publishing, rfl⟩
  | unchanged size at_ same => exact .inl ⟨at_.publishing.trans publishing, rfl⟩
  | compute site at_ => exact .inl ⟨at_.publishing.trans publishing, rfl⟩
  | update site policy run =>
      cases site with
      | resetConsumed size => exact .inl ⟨publishing, Effect.dataSize_apply _ _⟩
      | release other =>
          simp only [UpdateSite.after] at publishing
          split at publishing <;> cases publishing
      | _ => cases publishing
  | invoke operation => cases operation <;> cases publishing
  | waitReturns site ticket spins changed | wakeUp site ticket => cases site <;> cases publishing
  | wake site => cases site <;> cases publishing
  | _ => cases publishing

/-- Data is copied only after its length was checked. -/
theorem Takes.copying {msg : SharedMessage} {pc : Pc} {act : Act} (takes : Takes msg pc act)
    {newData : List UInt8} (copying : act.pc.copying = some newData) :
    pc.copying = some newData ∨ newData.length ≤ msg.capacity := by
  cases takes with
  | drainedSlice newData ticket none fits =>
      cases copying
      exact .inr fits
  | copyByte newData index bound => exact .inl copying
  | invoke operation => cases operation <;> cases copying
  | waitReturns site ticket spins changed | wakeUp site ticket => cases site <;> cases copying
  | wake site => cases site <;> cases copying
  | update site policy run =>
      cases site with
      | release other =>
          simp only [UpdateSite.after] at copying
          split at copying <;> cases copying
      | _ => cases copying
  | _ => cases copying

variable {ι : Type u} [DecidableEq ι] {targetRead consumers : BitVec 16}

/-- What is being written fits, and what is being published has its size stored. -/
structure Sized (state : State ι) : Prop where
  copying : ∀ party newData, (state.pc party).copying = some newData →
    newData.length ≤ state.msg.capacity
  publishing : ∀ party size, (state.pc party).publishing = some size →
    state.msg.dataSize = size ∧ size ≤ state.msg.capacity

omit [DecidableEq ι] in
/-- A step of one party does not move what another party is publishing. -/
theorem dataSize_of_publishing {source : State ι} {party other : ι} {choice : Choice} {act : Act}
    {size : Nat} (owned : Owned source.handshake)
    (next : next source.msg choice (source.pc party) = some act) (ne : other ≠ party)
    (publishing : (source.pc other).publishing = some size) :
    (act.effect.apply source.msg).dataSize = source.msg.dataSize := by
  rcases (next_move next).writing_of_changes with writes | ⟨_, same, _⟩
  · have otherWrites := Pc.phase_of_publishing publishing
    exact absurd (owned.unique (.inr (.inr otherWrites)) (.inr (.inr writes))) ne
  · exact same

theorem Sized.step {source target : State ι} {party : ι} {choice : Choice} (sized : Sized source)
    (owned : Owned source.handshake) (step : source.step (party, choice) = some target) :
    Sized target := by
  obtain ⟨act, next, rfl⟩ := State.step_eq_some_iff.mp step
  constructor
  · intro other newData copying
    rw [State.perform_msg, Effect.capacity_apply]
    rw [State.view_perform Pc.copying WaitSite.copying_resume] at copying
    split at copying
    · rcases (next_takes next).copying copying with before | fits
      · exact sized.copying party newData before
      · exact fits
    · exact sized.copying other newData copying
  · intro other size publishing
    rw [State.perform_msg, Effect.capacity_apply]
    rw [State.view_perform Pc.publishing WaitSite.publishing_resume] at publishing
    split at publishing
    · rcases (next_takes next).publishing publishing with ⟨before, same⟩ | ⟨stores, fits⟩
      · rw [same]
        exact sized.publishing party size before
      · refine ⟨by rw [stores]; rfl, ?_⟩
        rcases fits with fits | ⟨newData, copying, rfl⟩
        · exact fits
        · exact sized.copying party newData copying
    · rename_i ne
      rw [dataSize_of_publishing owned next ne publishing]
      exact sized.publishing other size publishing

theorem sized_of_reachable {state : State ι}
    (reachable : (system ι targetRead consumers).Reachable state) : Sized state := by
  refine reachable.invariant Sized ?_ ?_
  · rintro _ ⟨capacity, rfl⟩
    constructor
    · intro party newData copying
      cases copying
    · intro party size publishing
      cases publishing
  · rintro source ⟨party, choice⟩ target before sized step _
    exact sized.step (owned_of_reachable before) step

/-- The exchange publishes what `data_ref` would return. -/
theorem dataRef_of_publishStep {source target : State ι} {party : ι} {size : Nat}
    (reachable : (system ι targetRead consumers).Reachable source)
    (publish : source.PublishStep party size target) :
    target.msg.dataRef = some (source.msg.message size).bytes ∧
      (source.msg.message size).bytes.length = size := by
  obtain ⟨stored, fits⟩ := (sized_of_reachable reachable).publishing party size
    (by rw [publish.at_]; rfl)
  rw [publish.target_eq]
  constructor
  · have fits : source.msg.dataSize ≤ source.msg.capacity := stored.symm ▸ fits
    rw [← stored]
    exact if_pos fits
  · exact List.length_take_of_le fits

end RsIpc
