import Mathlib.Data.List.Nodup

/-!
# Atomic objects

Parties call the operations of an object.  Each call takes effect at one instant
between its invocation and its return, and returns what the operation gives on the
value of the object at that instant.  The order of these instants explains the
whole history: it is legal, and it keeps the order of calls that do not overlap.
-/

namespace RsIpc.Protocol.AtomicObject

universe u v w x

/-- What an operation gives back, and the value it leaves. -/
abbrev Spec (Op : Type u) (Res : Type v) (S : Type w) := Op → S → Res × S

/-- The calls are numbered in the order of their invocations. -/
inductive Event (Op : Type u) (Res : Type v)
  | invoked (id : Nat) (op : Op)
  | applied (id : Nat) (op : Op) (res : Res)
  | returned (id : Nat) (res : Res)

/-- A call that has taken effect, and what it will return. -/
structure Taken (Op : Type u) (Res : Type v) where
  id : Nat
  op : Op
  res : Res

variable {Op : Type u} {Res : Type v} {S : Type w} {ι : Type x}

/-! ## Histories -/

/-- The calls that have taken effect, in the order in which they did. -/
def effects (log : List (Event Op Res)) : List (Taken Op Res) :=
  log.filterMap fun event =>
    match event with
    | .applied id op res => some ⟨id, op, res⟩
    | _ => none

@[simp]
theorem effects_append (first second : List (Event Op Res)) :
    effects (first ++ second) = effects first ++ effects second :=
  List.filterMap_append

/-- The numbers of the calls made so far. -/
def invocations (log : List (Event Op Res)) : List Nat :=
  log.filterMap fun event =>
    match event with
    | .invoked id _ => some id
    | _ => none

@[simp]
theorem invocations_append (first second : List (Event Op Res)) :
    invocations (first ++ second) = invocations first ++ invocations second :=
  List.filterMap_append

/-- One call after another, each with its own result. -/
def Legal (spec : Spec Op Res S) : S → List (Taken Op Res) → S → Prop
  | start, [], now => now = start
  | start, taken :: rest, now =>
      taken.res = (spec taken.op start).1 ∧ Legal spec (spec taken.op start).2 rest now

theorem Legal.concat {spec : Spec Op Res S} {start now : S} {order : List (Taken Op Res)}
    (legal : Legal spec start order now) (id : Nat) (op : Op) :
    Legal spec start (order ++ [⟨id, op, (spec op now).1⟩]) (spec op now).2 := by
  induction order generalizing start with
  | nil =>
      cases legal
      exact ⟨rfl, rfl⟩
  | cons taken rest ih => exact ⟨legal.1, ih legal.2⟩

/-- The order in which the calls took effect explains the history: run one after
another they give the results and the value; every call is made once and takes
effect at most once, under the operation it was made with; a call that returned has
taken effect with what it returned; and calls that did not overlap are in order. -/
structure Linearizes (spec : Spec Op Res S) (start : S) (log : List (Event Op Res)) (now : S) :
    Prop where
  legal : Legal spec start (effects log) now
  single : (invocations log).Nodup
  once : ((effects log).map Taken.id).Nodup
  invoked : ∀ taken ∈ effects log, Event.invoked taken.id taken.op ∈ log
  returned : ∀ id res, Event.returned id res ∈ log → ∃ op, ⟨id, op, res⟩ ∈ effects log
  realTime : ∀ first res second op,
    List.Sublist [Event.returned first res, Event.invoked second op] log →
      second ∈ (effects log).map Taken.id →
        List.Sublist [first, second] ((effects log).map Taken.id)

/-! ## The object -/

/-- Where a party is in a call. -/
inductive Status (Op : Type u) (Res : Type v)
  | idle
  | pending (id : Nat) (op : Op)
  | finished (id : Nat) (op : Op) (res : Res)

structure Config (ι : Type x) (Op : Type u) (Res : Type v) (S : Type w) where
  now : S
  status : ι → Status Op Res
  calls : Nat
  log : List (Event Op Res)

/-- What a party may do: begin a call, take effect, return. -/
inductive Change (spec : Spec Op Res S) (now : S) (calls : Nat) :
    Status Op Res → S → Nat → List (Event Op Res) → Status Op Res → Prop
  | stay (status : Status Op Res) : Change spec now calls status now calls [] status
  | invoke (op : Op) :
      Change spec now calls .idle now (calls + 1) [.invoked calls op] (.pending calls op)
  | apply (id : Nat) (op : Op) :
      Change spec now calls (.pending id op) (spec op now).2 calls
        [.applied id op (spec op now).1] (.finished id op (spec op now).1)
  | respond (id : Nat) (op : Op) (res : Res) :
      Change spec now calls (.finished id op res) now calls [.returned id res] .idle

/-- One step of one party. -/
structure Step (spec : Spec Op Res S) (party : ι) (source target : Config ι Op Res S) : Prop where
  change : ∃ events, target.log = source.log ++ events ∧
    Change spec source.now source.calls (source.status party) target.now target.calls events
      (target.status party)
  others : ∀ other, other ≠ party → target.status other = source.status other

/-- The history is explained so far, and the calls in progress are known to it. -/
structure Orderly (spec : Spec Op Res S) (start : S) (config : Config ι Op Res S) : Prop extends
    Linearizes spec start config.log config.now where
  known : ∀ id ∈ invocations config.log, id < config.calls
  pending : ∀ party id op, config.status party = .pending id op →
    Event.invoked id op ∈ config.log ∧ id ∉ (effects config.log).map Taken.id
  distinct : ∀ first second id firstOp secondOp, config.status first = .pending id firstOp →
    config.status second = .pending id secondOp → first = second
  finished : ∀ party id op res, config.status party = .finished id op res →
    ⟨id, op, res⟩ ∈ effects config.log

theorem mem_invocations {log : List (Event Op Res)} {id : Nat} {op : Op}
    (mem : Event.invoked id op ∈ log) : id ∈ invocations log :=
  List.mem_filterMap.mpr ⟨_, mem, rfl⟩

/-- Of two entries in order the later one is the last, or both were there. -/
theorem pair_sublist_concat {α : Type u} {first second last : α} {log : List α}
    (pair : List.Sublist [first, second] (log ++ [last])) :
    List.Sublist [first, second] log ∨ (second = last ∧ first ∈ log) := by
  have reversed : List.Sublist [second, first] (last :: log.reverse) := by
    simpa using pair.reverse
  cases reversed with
  | cons _ both => exact .inl (by simpa using both.reverse)
  | cons_cons _ rest => exact .inr ⟨rfl, by simpa using rest⟩

theorem Orderly.start (spec : Spec Op Res S) (value : S) (calls : Nat) :
    Orderly spec value (⟨value, fun _ => .idle, calls, []⟩ : Config ι Op Res S) := by
  constructor
  · constructor
    · rfl
    · exact List.nodup_nil
    · exact List.nodup_nil
    · nofun
    · nofun
    · intro first res second op pair
      cases pair
  · nofun
  · nofun
  · nofun
  · nofun

/-- An event that is no invocation leaves the order in real time alone, as long as the
calls that it adds to the order come after those that have returned. -/
theorem Linearizes.realTime_concat {spec : Spec Op Res S} {start now : S}
    {log : List (Event Op Res)} (explained : Linearizes spec start log now) {last : Event Op Res}
    (returns : ∀ id op, last ≠ .invoked id op) {first second : Nat} {res : Res} {op : Op}
    (pair : List.Sublist [Event.returned first res, Event.invoked second op] (log ++ [last]))
    (mem : second ∈ (effects (log ++ [last])).map Taken.id) :
    List.Sublist [first, second] ((effects (log ++ [last])).map Taken.id) := by
  rcases pair_sublist_concat pair with before | ⟨is, _⟩
  · rw [effects_append, List.map_append] at mem ⊢
    rcases List.mem_append.mp mem with old | new
    · exact (explained.realTime first res second op before old).trans (List.sublist_append_left _ _)
    · have ended : Event.returned first res ∈ log := before.subset (by simp)
      obtain ⟨op, taken⟩ := explained.returned first res ended
      have left : List.Sublist [first] ((effects log).map Taken.id) :=
        List.singleton_sublist.mpr (List.mem_map_of_mem taken)
      exact left.append (List.singleton_sublist.mpr new)
  · exact absurd is.symm (returns second op)

section Steps

variable {spec : Spec Op Res S} {start : S} {source : Config ι Op Res S} {party : ι}
  {status : ι → Status Op Res}

/-- A party that is not the one that steps has the status it had. -/
theorem other_of_ne {value : Status Op Res} (others : ∀ other, other ≠ party →
      status other = source.status other) {other : ι} (at_ : status other = value)
    (differs : status party ≠ value) : other ≠ party ∧ source.status other = value := by
  have ne : other ≠ party := by
    rintro rfl
    exact differs at_
  exact ⟨ne, (others other ne).symm.trans at_⟩

theorem Orderly.step_invoke (orderly : Orderly spec start source) {op : Op}
    (is : status party = .pending source.calls op)
    (others : ∀ other, other ≠ party → status other = source.status other) :
    Orderly spec start
      ⟨source.now, status, source.calls + 1, source.log ++ [.invoked source.calls op]⟩ := by
  have fresh : ∀ {id op}, Event.invoked id op ∈ source.log → id ≠ source.calls := by
    intro id op invoked
    exact Nat.ne_of_lt (orderly.known id (mem_invocations invoked))
  have unapplied : source.calls ∉ (effects source.log).map Taken.id := by
    intro mem
    obtain ⟨taken, applied, same⟩ := List.mem_map.mp mem
    exact fresh (orderly.invoked taken applied) same
  have same : effects (source.log ++ [Event.invoked source.calls op]) = effects source.log := by
    rw [effects_append]
    exact List.append_nil _
  constructor
  · constructor
    · rw [same]
      exact orderly.legal
    · rw [invocations_append]
      refine List.nodup_append.mpr ⟨orderly.single, List.nodup_singleton _, ?_⟩
      intro id old calls new
      rw [List.mem_singleton.mp new]
      exact Nat.ne_of_lt (orderly.known id old)
    · rw [same]
      exact orderly.once
    · rw [same]
      intro taken mem
      exact List.mem_append_left _ (orderly.invoked taken mem)
    · rw [same]
      intro id res mem
      rcases List.mem_append.mp mem with old | new
      · exact orderly.returned id res old
      · cases List.mem_singleton.mp new
    · rw [same]
      intro first res second other pair mem
      rcases pair_sublist_concat pair with before | ⟨last, _⟩
      · exact orderly.realTime first res second other before mem
      · cases last
        exact absurd mem unapplied
  · intro id mem
    rw [invocations_append] at mem
    rcases List.mem_append.mp mem with old | new
    · exact Nat.lt_succ_of_lt (orderly.known id old)
    · rw [List.mem_singleton.mp new]
      exact Nat.lt_succ_self _
  · rw [same]
    intro other id otherOp at_
    dsimp only at at_
    by_cases here : other = party
    · rw [here, is] at at_
      cases at_
      exact ⟨List.mem_append_right _ (List.mem_singleton.mpr rfl), unapplied⟩
    · rw [others other here] at at_
      obtain ⟨invoked, unapplied⟩ := orderly.pending other id otherOp at_
      exact ⟨List.mem_append_left _ invoked, unapplied⟩
  · intro first second id firstOp secondOp atFirst atSecond
    dsimp only at atFirst atSecond
    by_cases firstHere : first = party
    · by_cases secondHere : second = party
      · exact firstHere.trans secondHere.symm
      · rw [firstHere, is] at atFirst
        rw [others second secondHere] at atSecond
        cases atFirst
        exact absurd rfl (fresh (orderly.pending second _ _ atSecond).1)
    · rw [others first firstHere] at atFirst
      by_cases secondHere : second = party
      · rw [secondHere, is] at atSecond
        cases atSecond
        exact absurd rfl (fresh (orderly.pending first _ _ atFirst).1)
      · rw [others second secondHere] at atSecond
        exact orderly.distinct first second id firstOp secondOp atFirst atSecond
  · rw [same]
    intro other id otherOp res at_
    obtain ⟨_, before⟩ := other_of_ne others at_ (by rw [is]; nofun)
    exact orderly.finished other id otherOp res before

theorem Orderly.step_apply (orderly : Orderly spec start source) {id : Nat} {op : Op}
    (was : source.status party = .pending id op)
    (is : status party = .finished id op (spec op source.now).1)
    (others : ∀ other, other ≠ party → status other = source.status other) :
    Orderly spec start ⟨(spec op source.now).2, status, source.calls,
      source.log ++ [.applied id op (spec op source.now).1]⟩ := by
  obtain ⟨invoked, unapplied⟩ := orderly.pending party id op was
  have more : effects (source.log ++ [Event.applied id op (spec op source.now).1]) =
      effects source.log ++ [⟨id, op, (spec op source.now).1⟩] := effects_append _ _
  have same : invocations (source.log ++ [Event.applied id op (spec op source.now).1]) =
      invocations source.log := by
    rw [invocations_append]
    exact List.append_nil _
  constructor
  · constructor
    · rw [more]
      exact orderly.legal.concat id op
    · rw [same]
      exact orderly.single
    · rw [more, List.map_append]
      refine List.nodup_append.mpr ⟨orderly.once, List.nodup_singleton _, ?_⟩
      rintro other old _ new rfl
      rw [List.mem_singleton.mp new] at old
      exact unapplied old
    · rw [more]
      intro taken mem
      rcases List.mem_append.mp mem with old | new
      · exact List.mem_append_left _ (orderly.invoked taken old)
      · rw [List.mem_singleton.mp new]
        exact List.mem_append_left _ invoked
    · rw [more]
      intro other res mem
      rcases List.mem_append.mp mem with old | new
      · obtain ⟨op, taken⟩ := orderly.returned other res old
        exact ⟨op, List.mem_append_left _ taken⟩
      · cases List.mem_singleton.mp new
    · intro first res second other pair mem
      exact orderly.realTime_concat (fun _ _ => by nofun) pair mem
  · rw [same]
    exact orderly.known
  · rw [more]
    intro other otherId otherOp at_
    obtain ⟨ne, before⟩ := other_of_ne others at_ (by rw [is]; nofun)
    obtain ⟨otherInvoked, otherUnapplied⟩ := orderly.pending other otherId otherOp before
    refine ⟨List.mem_append_left _ otherInvoked, ?_⟩
    rw [List.map_append, List.mem_append, not_or]
    refine ⟨otherUnapplied, fun new => ?_⟩
    rw [List.mem_singleton.mp new] at before
    exact ne (orderly.distinct other party id otherOp op before was)
  · intro first second otherId firstOp secondOp atFirst atSecond
    obtain ⟨_, firstBefore⟩ := other_of_ne others atFirst (by rw [is]; nofun)
    obtain ⟨_, secondBefore⟩ := other_of_ne others atSecond (by rw [is]; nofun)
    exact orderly.distinct first second otherId firstOp secondOp firstBefore secondBefore
  · rw [more]
    intro other otherId otherOp res at_
    dsimp only at at_
    by_cases here : other = party
    · rw [here, is] at at_
      cases at_
      exact List.mem_append_right _ (List.mem_singleton.mpr rfl)
    · rw [others other here] at at_
      exact List.mem_append_left _ (orderly.finished other otherId otherOp res at_)

theorem Orderly.step_respond (orderly : Orderly spec start source) {id : Nat} {op : Op} {res : Res}
    (was : source.status party = .finished id op res) (is : status party = .idle)
    (others : ∀ other, other ≠ party → status other = source.status other) :
    Orderly spec start
      ⟨source.now, status, source.calls, source.log ++ [.returned id res]⟩ := by
  have sameEffects : effects (source.log ++ [Event.returned id res]) = effects source.log := by
    rw [effects_append]
    exact List.append_nil _
  have sameCalls : invocations (source.log ++ [Event.returned id res]) = invocations source.log := by
    rw [invocations_append]
    exact List.append_nil _
  constructor
  · constructor
    · rw [sameEffects]
      exact orderly.legal
    · rw [sameCalls]
      exact orderly.single
    · rw [sameEffects]
      exact orderly.once
    · rw [sameEffects]
      intro taken mem
      exact List.mem_append_left _ (orderly.invoked taken mem)
    · rw [sameEffects]
      intro other otherRes mem
      rcases List.mem_append.mp mem with old | new
      · exact orderly.returned other otherRes old
      · cases List.mem_singleton.mp new
        exact ⟨op, orderly.finished party id op res was⟩
    · intro first firstRes second other pair mem
      exact orderly.realTime_concat (fun _ _ => by nofun) pair mem
  · rw [sameCalls]
    exact orderly.known
  · rw [sameEffects]
    intro other otherId otherOp at_
    obtain ⟨_, before⟩ := other_of_ne others at_ (by rw [is]; nofun)
    obtain ⟨invoked, unapplied⟩ := orderly.pending other otherId otherOp before
    exact ⟨List.mem_append_left _ invoked, unapplied⟩
  · intro first second otherId firstOp secondOp atFirst atSecond
    obtain ⟨_, firstBefore⟩ := other_of_ne others atFirst (by rw [is]; nofun)
    obtain ⟨_, secondBefore⟩ := other_of_ne others atSecond (by rw [is]; nofun)
    exact orderly.distinct first second otherId firstOp secondOp firstBefore secondBefore
  · rw [sameEffects]
    intro other otherId otherOp otherRes at_
    obtain ⟨_, before⟩ := other_of_ne others at_ (by rw [is]; nofun)
    exact orderly.finished other otherId otherOp otherRes before

end Steps

/-- Every step keeps the history explained. -/
theorem Orderly.step {spec : Spec Op Res S} {start : S} {source target : Config ι Op Res S}
    {party : ι} (orderly : Orderly spec start source) (step : Step spec party source target) :
    Orderly spec start target := by
  obtain ⟨⟨events, log, change⟩, others⟩ := step
  obtain ⟨now, status, calls, entries⟩ := target
  dsimp only at log change others
  subst log
  generalize was : source.status party = before at change
  generalize is : status party = after at change
  cases change with
  | stay =>
      have same : status = source.status := by
        funext other
        by_cases here : other = party
        · rw [here, is, was]
        · exact others other here
      rw [same, List.append_nil]
      exact orderly
  | invoke op => exact orderly.step_invoke is others
  | apply id op => exact orderly.step_apply was is others
  | respond id op res => exact orderly.step_respond was is others

end RsIpc.Protocol.AtomicObject
