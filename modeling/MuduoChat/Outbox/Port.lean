import MuduoChat.Domain.Json
import MuduoChat.Lib.Prog
import MuduoChat.Store.InMemoryOutbox

/-!
# What relays and consumers of events call

The interface over which the relay of the outbox and the consumer of the event stream are
written: the message store, the clock, the publisher, the broker as a consumer sees it, the
handler of consumed events, and the consumer's own memory.  A request to the broker either is
answered, or its answer is refused, or the connection breaks; the wire format below is left
out.
-/

namespace MuduoChat

open Std

/-! ### Publishing -/

/-- An event that a relay has claimed, with what the envelope takes from its message. -/
structure OutboxPublishRequest where
  event : OutboxEvent
  conversationId : ConversationId
  sequence : ℕ
  topic : String
  deriving DecidableEq, Repr

inductive PublishFailure where
  | none
  | timeout
  | brokerUnavailable
  | payloadTooLarge
  | other
  deriving DecidableEq, Repr

/-- What the publisher answers for one request. -/
structure OutboxPublishOutcome where
  ok : Bool := false
  failure : PublishFailure := .other
  error : String := ""
  deriving DecidableEq, Repr

/-! ### Consuming -/

/-- One batch of records as it stands in an answer to a fetch.  Each record has the distance
of its offset from that of the batch. -/
structure RecordBatch where
  baseOffset : ℤ
  magic : ℕ := 2
  records : List (ℤ × String)
  deriving DecidableEq, Repr

/-- The part of an answer to a fetch that belongs to one partition. -/
structure PartitionData where
  partition : ℤ
  error : ℤ := 0
  batches : Option (List RecordBatch) := none
  deriving DecidableEq, Repr

structure FetchedRecord where
  partition : ℤ
  offset : ℤ
  value : String
  deriving DecidableEq, Repr

/-- An event that has been read from the stream. -/
structure ConsumedOutboxRecord where
  topic : String := ""
  partition : ℤ := 0
  offset : ℤ := 0
  messageId : ℕ := 0
  conversationId : ℕ := 0
  sequence : ℕ := 0
  eventType : String := ""
  payload : String := ""
  deriving DecidableEq, Repr

/-- How an event has been dealt with. -/
inductive ConsumeDisposition where
  | advanced
  | duplicateNoOp
  | deadLettered
  deriving DecidableEq, Repr

/-- What a consumer keeps in memory. -/
structure ConsumerState where
  connected : Bool := false
  assigned : Bool := false
  partitions : List ℤ := []
  cursor : TreeMap ℤ ℤ := ∅
  lastSeen : TreeMap ℕ (ℕ × ℕ) := ∅
  seenMessages : TreeMap ℕ (TreeSet ℕ) := ∅
  conversationOrder : List ℕ := []
  highWatermark : TreeMap ℤ ℤ := ∅
  consumerLag : ℕ := 0
  rebalanceCount : ℕ := 0

/-! ### The calls -/

/-- Exceptions, as far as handlers tell them apart. -/
inductive OutboxFault where
  | std
  | other
  deriving DecidableEq, Repr

/-- The answer to a request.  After `closed` the connection has to be opened again. -/
inductive Rpc (α : Type) where
  | ok (a : α)
  | refused
  | closed
  deriving DecidableEq, Repr

inductive OutboxMetric where
  | poison
  | lag (unprocessed : ℕ)
  | seenConversations (n : ℕ)
  deriving DecidableEq, Repr

/-- The calls.  Three of them are no calls of the source: `load` and `save` stand at the
beginning and the end of a poll, and `duplicate` marks the place where an event is dropped as
one that has been seen. -/
inductive OutboxCall where
  | nowMs
  | claimOutboxEvents (nowMs : ℤ) (leaseOwner : String) (leaseUntilMs : ℤ) (limit : ℕ)
  | findMessage (messageId : MessageId)
  | markOutboxProcessed (eventId : ℕ) (nowMs : ℤ)
  | countUnprocessedOutboxEvents
  | insertMessage (draft : Message)
  | publish (batch : List OutboxPublishRequest) (deadlineMs : ℤ)
  | produce (partition : ℤ) (gap : ℕ) (value : String)
  | record (metric : OutboxMetric)
  | load
  | save (s : ConsumerState)
  | connectTo
  | metadataPartitions
  | offsetFetchAll (partitions : List ℤ)
  | listOffsets (timestamp : ℤ) (partitions : List ℤ)
  | fetchAll (positions : List (ℤ × ℤ))
  | recordDeadLetter (r : DeadLetterRecord)
  | handle (r : ConsumedOutboxRecord)
  | duplicate (r : ConsumedOutboxRecord)
  | preCommitHook
  | offsetCommitAll (toCommit : List (ℤ × ℤ))

/-- What the calls answer.  Offsets come with the error of their partition. -/
def OutboxCall.Value : OutboxCall → Type
  | .nowMs => ℤ
  | .claimOutboxEvents _ _ _ _ => List OutboxEvent
  | .findMessage _ => Option Message
  | .markOutboxProcessed _ _ => Unit
  | .countUnprocessedOutboxEvents => ℕ
  | .insertMessage _ => Message
  | .publish _ _ => List OutboxPublishOutcome
  | .produce _ _ _ => Unit
  | .record _ => Unit
  | .load => ConsumerState
  | .save _ => Unit
  | .connectTo => Bool
  | .metadataPartitions => Rpc (List ℤ)
  | .offsetFetchAll _ => Rpc (List (ℤ × ℤ × ℤ))
  | .listOffsets _ _ => Rpc (List (ℤ × ℤ))
  | .fetchAll _ => Rpc (List PartitionData)
  | .recordDeadLetter _ => Unit
  | .handle _ => ConsumeDisposition
  | .duplicate _ => Unit
  | .preCommitHook => Unit
  | .offsetCommitAll _ => Rpc (List (ℤ × ℤ))

/-- The interface of relays and consumers. -/
def OutboxPort : Sig := ⟨OutboxCall, OutboxCall.Value, OutboxFault⟩

/-- The programs of relays and consumers. -/
abbrev OutboxCode (α : Type) := Prog OutboxPort α

namespace OutboxCode

def ask (c : OutboxCall) : OutboxCode c.Value := Prog.ask (E := OutboxPort) c

/-- Catch the exceptions that are of a standard class. -/
def catchStd {α : Type} (p : OutboxCode α) (q : OutboxCode α) : OutboxCode α :=
  p.tryCatch fun
    | .std => q
    | .other => .fail .other

def catchAll {α : Type} (p : OutboxCode α) (q : OutboxCode α) : OutboxCode α :=
  p.tryCatch fun _ => q

end OutboxCode

end MuduoChat
