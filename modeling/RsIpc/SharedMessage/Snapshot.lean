import RsIpc.SharedMessage.Publishing

/-!
# What a read guard sees

There is one buffer.  A guard for an old message shows the right bytes because
no reader is admitted between the first store of a write and its publish.  The
give-up branch of `start_write` lowers the flag without having written; where an
abandoned write has left the flag up over bytes that nobody published, that
branch lets readers in.
-/

namespace RsIpc

open Protocol.Handshake Transition SequenceState

universe u

variable {ι : Type u} [DecidableEq ι] {targetRead consumers : BitVec 16}

omit [DecidableEq ι] in
/-- `data_ref` still returns the bytes of the last published message. -/
def State.Intact (state : State ι) : Prop :=
  ∀ message ∈ (History.published state.log).getLast?, state.msg.dataRef = some message.bytes

omit [DecidableEq ι] in
instance (state : State ι) : Decidable state.Intact :=
  Option.decidableForallMem _

/-- `read` is called with zero or with a number published earlier. -/
def Informed : StepCondition (State ι) (ι × Choice) :=
  fun source label _ => ∀ lastSeenSeq ∈ label.2.lastSeen,
    lastSeenSeq = 0 ∨ ∃ message ∈ History.published source.log, message.sequence = lastSeenSeq

omit [DecidableEq ι] in
instance (source : State ι) (label : ι × Choice) (target : State ι) :
    Decidable (Informed source label target) :=
  Option.decidableForallMem _

/-- The give-up branch of `start_write` lowers the flag only over a buffer that
still holds the last published message. -/
def ClearsIntact : StepCondition (State ι) (ι × Choice) :=
  fun source label _ => source.pc label.1 = .clearWriting → source.Intact

instance (source : State ι) (label : ι × Choice) (target : State ι) :
    Decidable (ClearsIntact source label target) :=
  inferInstanceAs (Decidable (source.pc label.1 = .clearWriting → source.Intact))

/-! ## Only published numbers are read -/

omit [DecidableEq ι] in
theorem published_eq_nil_of_publishes {state : State ι} (none : state.publishes = 0) :
    History.published state.log = [] :=
  List.eq_nil_of_length_eq_zero none

/-- What calls of `read` know in an informed run: their arguments were published,
and they register only once something was published. -/
structure Known (state : State ι) : Prop where
  lastSeen : ∀ party lastSeenSeq, (state.pc party).lastSeen = some lastSeenSeq →
    lastSeenSeq = 0 ∨ ∃ message ∈ History.published state.log, message.sequence = lastSeenSeq
  candidate : ∀ party sequence, (state.pc party).candidate = some sequence → 0 < state.publishes

theorem published_subset_of_step {source target : State ι} {party : ι} {choice : Choice}
    (step : source.step (party, choice) = some target) :
    History.published source.log ⊆ History.published target.log := by
  rcases publishStep_or_same step with ⟨size, publish⟩ | ⟨published, _⟩
  · rw [publish.published]
    exact List.subset_append_left _ _
  · rw [published]
    exact List.Subset.refl _

theorem Known.step {source target : State ι} {party : ι} {choice : Choice}
    (reachable : (system ι targetRead consumers).Reachable source) (known : Known source)
    (step : source.step (party, choice) = some target)
    (informed : Informed source (party, choice) target) : Known target where
  lastSeen := by
    intro other lastSeenSeq seen
    have before : lastSeenSeq = 0 ∨
        ∃ message ∈ History.published source.log, message.sequence = lastSeenSeq := by
      rcases lastSeen_of_step step seen with before | ⟨rfl, _, block, rfl⟩
      · exact known.lastSeen other lastSeenSeq before
      · exact informed lastSeenSeq rfl
    rcases before with zero | ⟨message, published, number⟩
    · exact .inl zero
    · exact .inr ⟨message, published_subset_of_step step published, number⟩
  candidate := by
    intro other sequence candidate
    refine Nat.lt_of_lt_of_le ?_ (publishes_le_of_step step)
    obtain ⟨act, next, rfl⟩ := State.step_eq_some_iff.mp step
    rw [State.view_perform Pc.candidate WaitSite.candidate_resume] at candidate
    split at candidate
    · rcases (next_takes next).candidate candidate with before | ⟨current, last, seen, new⟩
      · exact known.candidate party sequence before
      · -- Before the first publish the word and the argument are both zero.
        refine Nat.pos_of_ne_zero fun none => new ?_
        have number := currentSequence_eq_numberAfter reachable
        rw [none, numberAfter_zero, current] at number
        rcases known.lastSeen party last seen with zero | ⟨message, published, _⟩
        · exact zero.trans (BitVec.eq_of_toNat_eq number.symm)
        · rw [published_eq_nil_of_publishes none] at published
          cases published
    · exact known.candidate other sequence candidate

theorem known_of_informed {state : State ι}
    (reachable : (system ι targetRead consumers).ReachableVia Informed state) : Known state := by
  refine reachable.invariant Known ?_ ?_
  · rintro _ ⟨capacity, rfl⟩
    constructor
    · intro party lastSeenSeq seen
      cases seen
    · intro party sequence candidate
      cases candidate
  · rintro source ⟨party, choice⟩ target before known step informed
    exact known.step before.reachable step informed

/-! ## Lowering the flag -/

/-- A party outside its writing phase moves neither the buffer nor its history. -/
theorem same_of_not_writing {source target : State ι} {party : ι} {choice : Choice}
    (step : source.step (party, choice) = some target)
    (phase : (source.pc party).phase ≠ .writing) :
    History.published target.log = History.published source.log ∧
      target.msg.data = source.msg.data ∧ target.msg.dataSize = source.msg.dataSize ∧
        target.msg.currentSequence = source.msg.currentSequence := by
  rcases publishStep_or_same step with ⟨size, publish⟩ | ⟨published, _⟩
  · exact absurd (congrArg Pc.phase publish.at_) phase
  · obtain ⟨act, next, rfl⟩ := State.step_eq_some_iff.mp step
    rcases (next_move next).writing_of_changes with writes | same
    · exact absurd writes phase
    · exact ⟨published, same⟩

/-- In a bounded run every guard carries the current number. -/
theorem currentSequence_of_guard [Fintype ι] {state : State ι}
    (reachable : (system ι targetRead consumers).ReachableVia Bounded state) {holder : ι}
    {sequence : BitVec 64} (guard : (state.pc holder).guard = some sequence) :
    state.msg.currentSequence = sequence := by
  refine reachable.invariant (fun state => ∀ holder sequence,
    (state.pc holder).guard = some sequence → state.msg.currentSequence = sequence) ?_ ?_
    holder sequence guard
  · rintro _ ⟨capacity, rfl⟩ holder sequence guard
    cases guard
  · rintro source ⟨party, choice⟩ target before current step _ holder sequence guard
    have kept : (source.pc holder).guard = some sequence →
        target.msg.currentSequence = sequence := by
      intro held
      obtain ⟨_, _, same⟩ := stable_of_admitted before (Pc.phase_of_guard held) step
      exact same.trans (current holder sequence held)
    obtain ⟨act, next, rfl⟩ := State.step_eq_some_iff.mp step
    rw [State.view_perform Pc.guard WaitSite.guard_resume] at guard
    split at guard
    · rcases (next_takes next).guard guard with old | ⟨_, here, _, lastSeenSeq, block, at_⟩
      · rename_i same
        exact kept (same ▸ old)
      · have waiting : (source.pc party).phase ≠ .writing := by
          rw [at_]
          nofun
        exact (same_of_not_writing step waiting).2.2.2.trans here
    · exact kept guard

omit [DecidableEq ι] in
theorem State.Intact.congr {source target : State ι} (intact : source.Intact)
    (published : History.published target.log = History.published source.log)
    (data : target.msg.data = source.msg.data)
    (size : target.msg.dataSize = source.msg.dataSize) : target.Intact := by
  intro message last
  rw [published] at last
  have shown := intact message last
  rwa [SharedMessage.dataRef, SharedMessage.capacity, ← data, ← size] at shown

/-- Whoever may be admitted, or is, sees the last published message. -/
structure Shown (state : State ι) : Prop where
  intact : state.msg.getSequenceState.writingInProgress = false → state.Intact
  guarded : ∀ party sequence, (state.pc party).guard = some sequence →
    state.Intact ∧ state.msg.currentSequence = sequence ∧ 0 < state.publishes

section Steps

variable {source target : State ι} {party : ι} {choice : Choice}

theorem Shown.step_intact (reachable : (system ι targetRead consumers).Reachable source)
    (shown : Shown source) (step : source.step (party, choice) = some target)
    (clears : ClearsIntact source (party, choice) target)
    (down : target.msg.getSequenceState.writingInProgress = false) : target.Intact := by
  rcases publishStep_or_same step with ⟨size, publish⟩ | ⟨published, _⟩
  · intro message last
    rw [publish.published, List.getLast?_concat] at last
    cases last
    exact (dataRef_of_publishStep reachable publish).1
  · have lowered : source.msg.getSequenceState.writingInProgress = true →
        source.pc party = .clearWriting := by
      intro up
      obtain ⟨act, next, rfl⟩ := State.step_eq_some_iff.mp step
      rcases (next_takes next).lowers up down with ⟨message, event, _⟩ | clear
      · rw [State.perform_log, event, History.published_append] at published
        simp [History.published] at published
      · exact clear
    have notWriting : (source.pc party).phase ≠ .writing := by
      intro writes
      have clear := lowered ((owned_of_reachable reachable).raised (.inr writes))
      rw [clear] at writes
      cases writes
    obtain ⟨_, data, size, _⟩ := same_of_not_writing step notWriting
    have intact : source.Intact := by
      cases flag : source.msg.getSequenceState.writingInProgress with
      | false => exact shown.intact flag
      | true => exact clears (lowered flag)
    exact intact.congr published data size

variable [Fintype ι]

theorem Shown.step_guarded (reachable : (system ι targetRead consumers).ReachableVia Bounded source)
    (known : Known source) (shown : Shown source) (step : source.step (party, choice) = some target)
    {other : ι} {sequence : BitVec 64} (guard : (target.pc other).guard = some sequence) :
    target.Intact ∧ target.msg.currentSequence = sequence ∧ 0 < target.publishes := by
  have before : (source.pc party).phase ≠ .writing ∧
      source.Intact ∧ source.msg.currentSequence = sequence ∧ 0 < source.publishes := by
    have old : (source.pc other).guard = some sequence → (source.pc party).phase ≠ .writing ∧
        source.Intact ∧ source.msg.currentSequence = sequence ∧ 0 < source.publishes := by
      intro old
      refine ⟨fun writes => ?_, shown.guarded other sequence old⟩
      exact excluded_of_bounded reachable party writes other (Pc.phase_of_guard old)
    obtain ⟨act, next, rfl⟩ := State.step_eq_some_iff.mp step
    rw [State.view_perform Pc.guard WaitSite.guard_resume] at guard
    split at guard
    · rename_i here
      subst here
      rcases (next_takes next).guard guard with
        kept | ⟨down, current, _, lastSeenSeq, block, at_⟩
      · exact old kept
      · refine ⟨fun writes => ?_, shown.intact down, current,
          known.candidate other sequence (by rw [at_]; rfl)⟩
        exact absurd (owned_of_reachable reachable.reachable |>.raised (.inr writes))
          (by simp [State.handshake, down])
    · exact old guard
  obtain ⟨notWriting, intact, current, some⟩ := before
  obtain ⟨published, data, size, same⟩ := same_of_not_writing step notWriting
  exact ⟨intact.congr published data size, same.trans current,
    some.trans_le (publishes_le_of_step step)⟩

end Steps

/-- The runs in which read guards show what was published. -/
def Clean [Fintype ι] : StepCondition (State ι) (ι × Choice) :=
  fun source label target => Bounded source label target ∧ Informed source label target ∧
    ClearsIntact source label target

instance [Fintype ι] (source : State ι) (label : ι × Choice) (target : State ι) :
    Decidable (Clean source label target) :=
  inferInstanceAs (Decidable (Bounded source label target ∧ Informed source label target ∧
    ClearsIntact source label target))

theorem shown_of_clean [Fintype ι] {state : State ι}
    (reachable : (system ι targetRead consumers).ReachableVia Clean state) : Shown state := by
  refine reachable.invariant Shown ?_ ?_
  · rintro _ ⟨capacity, rfl⟩
    constructor
    · intro _ message last
      cases last
    · intro party sequence guard
      cases guard
  · rintro source ⟨party, choice⟩ target before shown step ⟨_, _, clears⟩
    constructor
    · exact shown.step_intact before.reachable step clears
    · intro other sequence guard
      exact shown.step_guarded (before.mono fun clean => clean.1)
        (known_of_informed (before.mono fun clean => clean.2.1)) step guard

/-! ## The guard of a message -/

/-- Every message keeps the size that its publish was given. -/
theorem published_length {state : State ι}
    (reachable : (system ι targetRead consumers).Reachable state) :
    ∀ message ∈ History.published state.log, message.bytes.length = message.size := by
  refine reachable.invariant (fun state => ∀ message ∈ History.published state.log,
    message.bytes.length = message.size) ?_ ?_
  · rintro _ ⟨capacity, rfl⟩ message published
    cases published
  · rintro source ⟨party, choice⟩ target before sized step _ message published
    rcases publishStep_or_same step with ⟨size, publish⟩ | ⟨same, _⟩
    · rw [publish.published, List.mem_append, List.mem_singleton] at published
      rcases published with old | rfl
      · exact sized message old
      · exact (dataRef_of_publishStep before publish).2
    · rw [same] at published
      exact sized message published

/-- Before the counter wraps, the current number is that of the last message only. -/
theorem getLast?_of_currentSequence {state : State ι}
    (reachable : (system ι targetRead consumers).Reachable state)
    (few : state.publishes < period) {message : Message}
    (published : message ∈ History.published state.log)
    (current : message.sequence = state.msg.currentSequence) :
    (History.published state.log).getLast? = some message := by
  obtain ⟨index, bound, rfl⟩ := List.mem_iff_getElem.mp published
  have number := published_sequence_eq reachable index bound
  rw [current, currentSequence_eq_numberAfter reachable, numberAfter_of_lt (Nat.le_of_lt few),
    numberAfter_of_lt (Nat.le_of_lt (Nat.lt_of_le_of_lt bound few))] at number
  rw [List.getLast?_eq_getElem?, List.getElem?_eq_some_iff]
  have last : (History.published state.log).length - 1 = index := Nat.sub_eq_of_eq_add number
  exact ⟨by omega, by simp only [last]⟩

/-- Once something was published, the current number is that of the last message. -/
theorem exists_current_message {state : State ι}
    (reachable : (system ι targetRead consumers).Reachable state) (some : 0 < state.publishes) :
    ∃ message ∈ History.published state.log, message.sequence = state.msg.currentSequence := by
  have bound : (History.published state.log).length - 1 <
      (History.published state.log).length := Nat.sub_lt some Nat.one_pos
  refine ⟨(History.published state.log)[(History.published state.log).length - 1],
    List.getElem_mem bound, BitVec.eq_of_toNat_eq ?_⟩
  rw [published_sequence_eq reachable, currentSequence_eq_numberAfter reachable]
  exact congrArg numberAfter (Nat.sub_add_cancel some)

/-- In a clean run a read guard shows exactly the message whose number it carries,
at the size given to its publish and with the bytes of the buffer at that publish. -/
theorem guard_shows_its_message [Fintype ι] {state : State ι}
    (reachable : (zeroed ι).ReachableVia Clean state) (few : state.publishes < period) {party : ι}
    {sequence : BitVec 64} (guard : state.pc party = .readGuard sequence) :
    (∃ message ∈ History.published state.log, message.sequence = sequence) ∧
      ∀ message ∈ History.published state.log, message.sequence = sequence →
        state.msg.dataRef = some message.bytes ∧ message.bytes.length = message.size := by
  obtain ⟨intact, current, some⟩ :=
    (shown_of_clean reachable).guarded party sequence (by rw [guard]; rfl)
  constructor
  · obtain ⟨message, published, number⟩ := exists_current_message reachable.reachable some
    exact ⟨message, published, number.trans current⟩
  · intro message published number
    have last := getLast?_of_currentSequence reachable.reachable few published
      (number.trans current.symm)
    exact ⟨intact message last, published_length reachable.reachable message published⟩

theorem guarded_shows_seven :
    guarded.msg.dataRef = some [7] ∧
      ∃ message ∈ History.published guarded.log, message.sequence = 1 :=
  ⟨by decide +kernel,
    (guard_shows_its_message (System.reachableVia_finish (initial_fresh (Fin 2) 4 0 0) _
      (by decide +kernel) : (zeroed (Fin 2)).ReachableVia Clean guarded) (by decide +kernel)
      (by decide +kernel : guarded.pc 1 = .readGuard 1)).1⟩

/-- A message is published and a write guard over it is dropped; then a stop makes
another writer give up while a reader is registered. -/
def abandonedBytes : State (Fin 4) :=
  (zeroed (Fin 4)).finish (State.fresh (Fin 4) 1 0 0)
    (calls 0 (.writeSlice [1]) 16 ++ calls 1 (.read 0 true) 2 ++ calls 0 .write 7 ++
      [(0, .store 0 9), (0, .drop), (0, .go)] ++ advances 1 2 ++ calls 2 .write 7 ++
      calls 3 .stop 6 ++ advances 2 3 ++ advances 1 1) (by decide +kernel)

/-- The reader holds a guard for the message `[1]` and reads the dropped byte. -/
theorem abandonedBytes_are_read :
    (zeroed (Fin 4)).ReachableVia
        (fun source label target => Bounded source label target ∧ Informed source label target)
        abandonedBytes ∧
      abandonedBytes.pc 1 = .readGuard 1 ∧
      History.published abandonedBytes.log = [⟨1, 1, [1]⟩] ∧
      abandonedBytes.msg.dataRef = some [9] :=
  ⟨System.reachableVia_finish (initial_fresh (Fin 4) 1 0 0) _ (by decide +kernel),
    by decide +kernel, by decide +kernel, by decide +kernel⟩

end RsIpc
