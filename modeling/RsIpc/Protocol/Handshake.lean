import Mathlib.Logic.Basic

/-!
# A flag and drain handshake

Writers and readers share a lock, a flag and a set of registrations.  A writer
takes the lock, raises the flag, and writes once it has seen no registration.  A
reader registers first and is admitted only if it then finds the flag down.
The two sides never see each other's word and their own at one instant; this
module says what holds all the same.
-/

namespace RsIpc.Protocol.Handshake

universe u

/-- Where a party is in the handshake. -/
inductive Phase
  | outside
  | holding
  | flagged
  | writing
  | registered
  | admitted
  deriving DecidableEq, Repr

namespace Phase

/-- The party holds the lock. -/
def Holds (phase : Phase) : Prop :=
  phase = .holding ∨ phase = .flagged ∨ phase = .writing

/-- The party has raised the flag and has not lowered it. -/
def Raised (phase : Phase) : Prop :=
  phase = .flagged ∨ phase = .writing

/-- The party has a registration outstanding. -/
def Reads (phase : Phase) : Prop :=
  phase = .registered ∨ phase = .admitted

instance : DecidablePred Holds := fun phase => by
  unfold Holds
  infer_instance

instance : DecidablePred Raised := fun phase => by
  unfold Raised
  infer_instance

instance : DecidablePred Reads := fun phase => by
  unfold Reads
  infer_instance

theorem Raised.holds {phase : Phase} (raised : phase.Raised) : phase.Holds :=
  .inr raised

end Phase

structure Config (ι : Type u) where
  locked : Bool
  flag : Bool
  phase : ι → Phase

/-- What a party may do to the lock, the flag and its own phase.  `drained` says
that no registration is outstanding; `abandon` is a writer that leaves with its
flag still up. -/
inductive Change (drained : Prop) (locked flag : Bool) (phase : Phase)
    (locked' flag' : Bool) (phase' : Phase) : Prop
  | stay (lock : locked' = locked) (up : flag' = flag) (now : phase' = phase)
  | acquire (free : locked = false) (was : phase = .outside)
      (lock : locked' = true) (up : flag' = flag) (now : phase' = .holding)
  | raise (was : phase = .holding)
      (lock : locked' = locked) (up : flag' = true) (now : phase' = .flagged)
  | drain (empty : drained) (was : phase = .flagged)
      (lock : locked' = locked) (up : flag' = flag) (now : phase' = .writing)
  | lower (was : phase = .flagged)
      (lock : locked' = locked) (up : flag' = false) (now : phase' = .holding)
  | publish (was : phase = .writing)
      (lock : locked' = locked) (up : flag' = false) (now : phase' = .holding)
  | abandon (was : phase = .writing)
      (lock : locked' = false) (up : flag' = flag) (now : phase' = .outside)
  | release (was : phase = .holding)
      (lock : locked' = false) (up : flag' = flag) (now : phase' = .outside)
  | register (was : phase = .outside)
      (lock : locked' = locked) (up : flag' = flag) (now : phase' = .registered)
  | granted (down : flag = false) (was : phase = .registered)
      (lock : locked' = locked) (up : flag' = flag) (now : phase' = .admitted)
  | unregister (was : phase = .registered)
      (lock : locked' = locked) (up : flag' = flag) (now : phase' = .outside)
  | leave (was : phase = .admitted)
      (lock : locked' = locked) (up : flag' = flag) (now : phase' = .outside)

variable {ι : Type u}

/-- No registration is outstanding. -/
def Config.Drained (config : Config ι) : Prop :=
  ∀ party, ¬ (config.phase party).Reads

/-- One step of one party; `drained` is what a writer that starts writing knows
about the registrations. -/
structure Step (drained : Prop) (party : ι) (source target : Config ι) : Prop where
  change : Change drained source.locked source.flag (source.phase party)
    target.locked target.flag (target.phase party)
  others : ∀ other, other ≠ party → target.phase other = source.phase other

/-- What the lock gives, whatever the registrations do. -/
structure Owned (config : Config ι) : Prop where
  unique : ∀ {first second}, (config.phase first).Holds → (config.phase second).Holds →
    first = second
  locked : ∀ {party}, (config.phase party).Holds → config.locked = true
  held : config.locked = true → ∃ party, (config.phase party).Holds
  raised : ∀ {party}, (config.phase party).Raised → config.flag = true

/-- No registration is admitted while a party writes. -/
def Excluded (config : Config ι) : Prop :=
  ∀ party, config.phase party = .writing → ∀ other, config.phase other ≠ .admitted

theorem Owned.start {config : Config ι} (free : config.locked = false)
    (outside : ∀ party, config.phase party = .outside) : Owned config where
  unique := by simp [outside, Phase.Holds]
  locked := by simp [outside, Phase.Holds]
  held := by simp [free]
  raised := by simp [outside, Phase.Raised]

theorem Excluded.start {config : Config ι}
    (outside : ∀ party, config.phase party = .outside) : Excluded config := by
  simp [Excluded, outside]

section Steps

variable {drained : Prop} {party : ι} {source target : Config ι}

/-- Other parties keep the lock, or do not have it, through a step. -/
theorem Step.holds_of_ne (step : Step drained party source target) {other : ι} (ne : other ≠ party) :
    (target.phase other).Holds ↔ (source.phase other).Holds := by
  rw [step.others other ne]

/-- A party that holds the lock after its own step held it before, or took it
while it was free. -/
theorem Step.holds_self (step : Step drained party source target)
    (holds : (target.phase party).Holds) :
    (source.phase party).Holds ∧ target.locked = source.locked ∨
      source.locked = false ∧ target.locked = true := by
  obtain ⟨change, _⟩ := step
  cases change <;> simp_all [Phase.Holds]

theorem Owned.step_unique (safe : Owned source) (step : Step drained party source target)
    {first second : ι} (firstHolds : (target.phase first).Holds)
    (secondHolds : (target.phase second).Holds) : first = second := by
  have other_eq : ∀ other, other ≠ party → (source.phase other).Holds →
      ¬ (target.phase party).Holds := by
    intro other ne otherHolds partyHolds
    rcases step.holds_self partyHolds with ⟨held, _⟩ | ⟨free, _⟩
    · exact ne (safe.unique otherHolds held)
    · exact absurd (safe.locked otherHolds) (by simp [free])
  by_cases firstParty : first = party
  · by_cases secondParty : second = party
    · exact firstParty.trans secondParty.symm
    · subst firstParty
      exact absurd firstHolds
        (other_eq second secondParty ((step.holds_of_ne secondParty).mp secondHolds))
  · have firstHeld := (step.holds_of_ne firstParty).mp firstHolds
    by_cases secondParty : second = party
    · subst secondParty
      exact absurd secondHolds (other_eq first firstParty firstHeld)
    · exact safe.unique firstHeld ((step.holds_of_ne secondParty).mp secondHolds)

/-- Nobody but the holder changes the lock. -/
theorem Owned.locked_of_other (safe : Owned source) (step : Step drained party source target)
    {other : ι} (ne : other ≠ party) (holds : (source.phase other).Holds) :
    target.locked = true := by
  have locked := safe.locked holds
  have notHolder : ¬ (source.phase party).Holds := fun partyHolds =>
    ne (safe.unique holds partyHolds)
  obtain ⟨change, _⟩ := step
  cases change <;> simp_all [Phase.Holds]

/-- Nobody but the holder lowers the flag. -/
theorem Owned.flag_of_other (safe : Owned source) (step : Step drained party source target)
    {other : ι} (ne : other ≠ party) (raised : (source.phase other).Raised) :
    target.flag = true := by
  have flag := safe.raised raised
  have notHolder : ¬ (source.phase party).Holds := fun partyHolds =>
    ne (safe.unique raised.holds partyHolds)
  obtain ⟨change, _⟩ := step
  cases change <;> simp_all [Phase.Holds]

/-- One step keeps the lock and the flag with their owner. -/
theorem Owned.step (safe : Owned source) (step : Step drained party source target) :
    Owned target where
  unique := safe.step_unique step
  locked := by
    intro other holds
    by_cases here : other = party
    · subst here
      rcases step.holds_self holds with ⟨held, keep⟩ | ⟨_, taken⟩
      · exact keep.trans (safe.locked held)
      · exact taken
    · exact safe.locked_of_other step here ((step.holds_of_ne here).mp holds)
  held := by
    intro locked
    by_cases partyHolds : (target.phase party).Holds
    · exact ⟨party, partyHolds⟩
    · have before : source.locked = true ∧ ¬ (source.phase party).Holds := by
        obtain ⟨change, _⟩ := step
        cases change <;> simp_all [Phase.Holds]
      obtain ⟨other, holds⟩ := safe.held before.1
      have ne : other ≠ party := by
        rintro rfl
        exact before.2 holds
      exact ⟨other, (step.holds_of_ne ne).mpr holds⟩
  raised := by
    intro other raised
    by_cases here : other = party
    · subst here
      have flag : (source.phase other).Raised → source.flag = true := safe.raised
      obtain ⟨change, _⟩ := step
      cases change <;> simp_all [Phase.Raised]
    · rw [step.others other here] at raised
      exact safe.flag_of_other step here raised

/-- A writer that starts writing only when no registration is outstanding keeps
admitted readers out, since nobody is admitted while its flag is up. -/
theorem Excluded.step (excluded : Excluded source) (safe : Owned source)
    (step : Step source.Drained party source target) : Excluded target := by
  intro writer writing reader admitted
  by_cases here : writer = party
  · subst here
    have ne : reader ≠ writer := by
      rintro rfl
      simp [writing] at admitted
    rw [step.others reader ne] at admitted
    have before := fun was : source.phase writer = .writing => excluded writer was reader admitted
    obtain ⟨change, _⟩ := step
    cases change with
    | drain empty => exact empty reader (.inr admitted)
    | _ => simp_all
  · rw [step.others writer here] at writing
    have flag := safe.raised (.inr writing)
    by_cases there : reader = party
    · subst there
      have before := excluded writer writing reader
      obtain ⟨change, _⟩ := step
      cases change <;> simp_all
    · rw [step.others reader there] at admitted
      exact excluded writer writing reader admitted

/-- As long as no writer leaves with its flag up, a raised flag has an owner. -/
theorem Step.flag_owned (step : Step drained party source target)
    (kept : ¬ (source.phase party = .writing ∧ target.phase party = .outside))
    (owned : source.flag = true → ∃ owner, (source.phase owner).Raised)
    (flag : target.flag = true) : ∃ owner, (target.phase owner).Raised := by
  by_cases partyRaised : (target.phase party).Raised
  · exact ⟨party, partyRaised⟩
  · have before : source.flag = true ∧ ¬ (source.phase party).Raised := by
      obtain ⟨change, _⟩ := step
      cases change <;> simp_all [Phase.Raised]
    obtain ⟨owner, raised⟩ := owned before.1
    have ne : owner ≠ party := by
      rintro rfl
      exact before.2 raised
    exact ⟨owner, by rwa [step.others owner ne]⟩

/-- A writer that leaves with its flag up leaves it without an owner. -/
theorem Owned.orphan_step (safe : Owned source) (step : Step drained party source target)
    (was : source.phase party = .writing) (now : target.phase party = .outside) :
    target.flag = true ∧ target.locked = false := by
  have flag := safe.raised (.inr was : (source.phase party).Raised)
  obtain ⟨change, _⟩ := step
  cases change <;> simp_all

end Steps

end RsIpc.Protocol.Handshake
