import RsIpc.SharedMessage.Numbering
import RsIpc.SharedMessage.Within
import RsIpc.Transition.Refinement

/-!
# An atomic channel

What the memory is for, without its words.  Messages are published one after
another, each by a call that takes effect at one instant between its start and its
return.  A reader is given the last message, and a writer drafts one while nobody
else does.
-/

namespace RsIpc

open Transition

universe u

namespace Channel

/-- Where a party is in a call. -/
inductive Status
  | idle
  | called (operation : Operation)
  | drafting (draft : List UInt8)
  | publishing (bytes : List UInt8)
  | showing (number : BitVec 64) (bytes : List UInt8)
  | returning (outcome : Outcome)

/-- The party has a message in the making. -/
def Status.Writes : Status → Prop
  | .drafting _ | .publishing _ => True
  | _ => False

/-- What is seen of a party: its calls and their outcomes, what it does with a write
guard, and what a read guard shows when it is dropped. -/
inductive Seen
  | call (operation : Operation)
  | result (outcome : Outcome)
  | store (index : Nat) (byte : UInt8)
  | publish (size : Nat)
  | discard
  | release (number : BitVec 64) (data : Option (List UInt8))
  deriving DecidableEq, Repr

/-- The number of the last message. -/
def number (messages : List (List UInt8)) : BitVec 64 :=
  BitVec.ofNat 64 (numberAfter messages.length)

/-- What a party may do to the messages and the stopped flag, and what is seen of it.
Nobody else has a message in the making if it is `alone`. -/
inductive Acts (capacity : Nat) (alone : Prop) (messages : List (List UInt8)) (stopped : Bool) :
    Status → Option Seen → List (List UInt8) → Bool → Status → Prop
  | call (operation : Operation) :
      Acts capacity alone messages stopped .idle (some (.call operation)) messages stopped
        (.called operation)
  | result (outcome : Outcome) :
      Acts capacity alone messages stopped (.returning outcome) (some (.result outcome))
        messages stopped .idle
  -- writing
  | refuse (operation : Operation) (writes : operation.Writes) (down : stopped = true) :
      Acts capacity alone messages stopped (.called operation) none messages stopped
        (.returning .none)
  | reject (newData : List UInt8) (large : capacity < newData.length) :
      Acts capacity alone messages stopped (.called (.writeSlice newData)) none messages stopped
        (.returning .panicked)
  | accept (newData : List UInt8) (fits : newData.length ≤ capacity) (only : alone) :
      Acts capacity alone messages stopped (.called (.writeSlice newData)) none messages stopped
        (.publishing newData)
  | start (draft : List UInt8) (whole : draft.length = capacity) (only : alone) :
      Acts capacity alone messages stopped (.called .write) none messages stopped (.drafting draft)
  | store (draft : List UInt8) (index : Nat) (byte : UInt8) (bound : index < capacity) :
      Acts capacity alone messages stopped (.drafting draft) (some (.store index byte))
        messages stopped (.drafting (draft.set index byte))
  | publish (draft : List UInt8) (size : Nat) (fits : size ≤ capacity) :
      Acts capacity alone messages stopped (.drafting draft) (some (.publish size))
        messages stopped (.publishing (draft.take size))
  | refuseSize (draft : List UInt8) (size : Nat) (large : capacity < size) :
      Acts capacity alone messages stopped (.drafting draft) (some (.publish size))
        messages stopped (.returning .none)
  | discard (draft : List UInt8) :
      Acts capacity alone messages stopped (.drafting draft) (some .discard) messages stopped
        (.returning .unit)
  | commit (bytes : List UInt8) :
      Acts capacity alone messages stopped (.publishing bytes) none (messages ++ [bytes]) stopped
        (.returning (.sequence (number (messages ++ [bytes]))))
  -- reading
  | reveal (lastSeenSeq : BitVec 64) (block : Bool) (bytes : List UInt8)
      (last : messages.getLast? = some bytes) (new : number messages ≠ lastSeenSeq) :
      Acts capacity alone messages stopped (.called (.read lastSeenSeq block)) none messages stopped
        (.showing (number messages) bytes)
  | nothing (lastSeenSeq : BitVec 64) (block : Bool) (seen : number messages = lastSeenSeq)
      (reason : stopped = true ∨ block = false) :
      Acts capacity alone messages stopped (.called (.read lastSeenSeq block)) none messages stopped
        (.returning .none)
  | release (number : BitVec 64) (bytes : List UInt8) :
      Acts capacity alone messages stopped (.showing number bytes)
        (some (.release number (some bytes))) messages stopped (.returning .unit)
  -- the other calls
  | stop :
      Acts capacity alone messages stopped (.called .stop) none messages true (.returning .unit)
  | setTarget (count : BitVec 16) :
      Acts capacity alone messages stopped (.called (.setTargetReadCount count)) none
        messages stopped (.returning .unit)
  | membership (operation : Operation)
      (changes : operation = .addReader ∨ operation = .removeReader) (outcome : Outcome)
      (possible : operation.Returns capacity outcome) :
      Acts capacity alone messages stopped (.called operation) none messages stopped
        (.returning outcome)

end Channel

structure Channel (ι : Type u) where
  capacity : Nat
  messages : List (List UInt8)
  stopped : Bool
  status : ι → Channel.Status

/-- One party acts. -/
structure Channel.Step {ι : Type u} (source : Channel ι) (party : ι) (seen : Option Channel.Seen)
    (target : Channel ι) : Prop where
  capacity : target.capacity = source.capacity
  acts : Channel.Acts source.capacity (∀ other, other ≠ party → ¬ (source.status other).Writes)
    source.messages source.stopped (source.status party) seen target.messages target.stopped
    (target.status party)
  others : ∀ other, other ≠ party → target.status other = source.status other

/-- The channel with all its parties, from the empty one. -/
def channel (ι : Type u) : Machine (Channel ι) (ι × Channel.Seen) where
  initial state := state.messages = [] ∧ state.stopped = false ∧ ∀ party, state.status party = .idle
  step source observation target := ∃ party seen,
    observation = seen.map (fun seen => (party, seen)) ∧ source.Step party seen target

end RsIpc
