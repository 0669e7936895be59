import MuduoChat.Lib.Parallel
import MuduoChat.Outbox.Consumer
import MuduoChat.Outbox.Relay
import MuduoChat.Store.Consistent

/-!
# Relays and consumers around one event stream

Relays take events from the outbox of one store and publish them to the partitions of one
topic; consumers read the topic, each on behalf of its own group.  All of them are interleaved
at their single calls, and each of them may stop for ever between two calls.  Messages are
accepted into the store and other records come into the topic at any time.

The broker keeps the records of a partition in ascending order of their offsets.  An answer to
a fetch contains for each partition a run of consecutive records that begins at or before the
offset that was asked for, or with the first record behind it.  The beginning of a partition is
not after any of its records.
-/

namespace MuduoChat

open Std Relation

structure LogRecord where
  offset : ℕ
  value : String
  deriving DecidableEq, Repr

/-- What has happened at one call.  An entry `aborted` stands where the handler or the store of
dead letters has thrown. -/
inductive StreamEntry where
  | claimed (nowMs : ℤ) (limit : ℕ) (events : List OutboxEvent)
  | published (batch : List OutboxPublishRequest) (outcomes : List OutboxPublishOutcome)
  | began
  | fetched (positions : List (ℤ × ℤ))
  | handled (r : ConsumedOutboxRecord) (d : ConsumeDisposition)
  | seen (r : ConsumedOutboxRecord)
  | rejected (r : DeadLetterRecord)
  | aborted
  | committed (partition offset : ℤ)
  deriving DecidableEq, Repr

/-- The offset that an entry commits for a partition. -/
def StreamEntry.commitOf (p : ℤ) : StreamEntry → Option ℤ
  | .committed q c => if q = p then some c else none
  | _ => none

/-- The store, the partitions of the topic with the offset behind their last record, the offsets
that were committed for each consumer at the beginning, and the memories of the consumers.  The
history is a record of what has happened, with the latest entry first. -/
structure Stream (ι : Type) where
  store : InMemoryMessageStore := {}
  log : ℤ → List LogRecord := fun _ => []
  logEnd : ℤ → ℕ := fun _ => 0
  resume : ι → ℤ → Option ℤ := fun _ _ => none
  consumer : ι → ConsumerState := fun _ => {}
  history : List (ι × StreamEntry) := []

/-- Whether a request is answered. -/
inductive RpcFate where
  | ok
  | refused
  | closed
  deriving DecidableEq, Repr

def RpcFate.answer {α : Type} (fate : RpcFate) (a : α) : Rpc α :=
  match fate with
  | .ok => .ok a
  | .refused => .refused
  | .closed => .closed

/-- What the surroundings choose at a call: the reading of the clock, the answer of the publisher
and which of the requests reach the topic, whether a request to the broker is answered and with
what, and the answers of the handler, of the store of dead letters and of the hook. -/
structure StreamEnv where
  now : ℤ := 0
  publish : Except OutboxFault (List OutboxPublishOutcome) := .ok []
  appended : List ℕ := []
  reachable : Bool := true
  fate : RpcFate := .ok
  partitions : List ℤ := []
  failing : List ℤ := []
  offsets : List (ℤ × ℤ) := []
  response : List PartitionData := []
  codes : List (ℤ × ℤ) := []
  deadLetter : Option OutboxFault := none
  handled : Except OutboxFault ConsumeDisposition := .ok .advanced
  hook : Option OutboxFault := none

/-! ### The topic -/

/-- The value of the record that is published for an event. -/
def OutboxPublishRequest.envelope (request : OutboxPublishRequest) : Json :=
  .obj [("conversation_id", .unsigned request.conversationId.value),
    ("event_type", .str request.event.eventType),
    ("message_id", .unsigned request.event.aggregateMessageId.value),
    ("payload", .str request.event.payload),
    ("sequence", .unsigned request.sequence)]

/-- A record as a fetch returns it. -/
def LogRecord.fetched (p : ℤ) (r : LogRecord) : FetchedRecord := ⟨p, r.offset, r.value⟩

/-- Consecutive records of a partition.  No record at or behind the offset stands before them. -/
def Run (log : List FetchedRecord) (position : ℤ) (rs : List FetchedRecord) : Prop :=
  rs <:+: log ∧ ∀ r ∈ rs.head?, ∀ x ∈ log, position ≤ x.offset → r.offset ≤ x.offset

instance (log : List FetchedRecord) (position : ℤ) (rs : List FetchedRecord) :
    Decidable (Run log position rs) :=
  inferInstanceAs (Decidable (_ ∧ ∀ r ∈ rs.head?, ∀ x ∈ log, position ≤ x.offset → _ ≤ _))

namespace Stream

variable {ι : Type}

/-- Add a record to a partition, with a gap before it. -/
def append (w : Stream ι) (p : ℤ) (gap : ℕ) (value : String) : Stream ι :=
  { w with
    log := Function.update w.log p (w.log p ++ [⟨w.logEnd p + gap, value⟩])
    logEnd := Function.update w.logEnd p (w.logEnd p + gap + 1) }

/-- Add the record of a request.  The events of a conversation, whose id has 64 bits, go to one
partition. -/
def appendRequest (partitionCount : ℕ) (w : Stream ι) (request : OutboxPublishRequest) :
    Stream ι :=
  w.append (request.conversationId.value % 2 ^ 64 % partitionCount : ℕ) 0 request.envelope.dump

/-- Add the records of those requests of a batch that reach the topic. -/
def appendBatch (partitionCount : ℕ) (w : Stream ι) (batch : List OutboxPublishRequest)
    (appended : List ℕ) : Stream ι :=
  (appended.filterMap (batch[·]?)).foldl (appendRequest partitionCount) w

def note (w : Stream ι) (i : ι) (e : StreamEntry) : Stream ι :=
  { w with history := (i, e) :: w.history }

/-- The beginning of a partition is not after one of its records, nor after the records to
come. -/
def earliestOk (w : Stream ι) (offsets : List (ℤ × ℤ)) : Bool :=
  offsets.all fun a =>
    decide (a.2 ≤ w.logEnd a.1) && (w.log a.1).all fun r => decide (a.2 ≤ r.offset)

/-- The answer to a fetch is one that the broker can give. -/
def FetchOk (w : Stream ι) (positions : List (ℤ × ℤ)) (response : List PartitionData) : Prop :=
  ∀ fetched ∈ (KafkaEventConsumer.gather response).map Prod.fst, ∀ r ∈ fetched,
    ∃ a ∈ positions, a.1 = r.partition ∧
      Run ((w.log r.partition).map (LogRecord.fetched r.partition)) a.2
        (fetched.filter fun x => x.partition = r.partition)

instance (w : Stream ι) (positions : List (ℤ × ℤ)) (response : List PartitionData) :
    Decidable (w.FetchOk positions response) :=
  inferInstanceAs (Decidable (∀ fetched ∈ _, ∀ r ∈ fetched, ∃ a ∈ positions, _ ∧ Run _ _ _))

variable [DecidableEq ι]

/-- What has happened at the calls of one party. -/
def entriesOf (w : Stream ι) (i : ι) : List StreamEntry :=
  (w.history.filter fun e => e.1 = i).map Prod.snd

/-- The offset that is committed for a consumer in a partition. -/
def committedOffset (w : Stream ι) (i : ι) (p : ℤ) : Option ℤ :=
  ((w.entriesOf i).findSome? (StreamEntry.commitOf p)).or (w.resume i p)

/-! ### The calls -/

/-- The offsets of a consumer, with the errors of some partitions. -/
def offsetsOf (w : Stream ι) (i : ι) (parts failing : List ℤ) : List (ℤ × ℤ × ℤ) :=
  parts.map fun p => (p, (w.committedOffset i p).getD (-1), if p ∈ failing then 1 else 0)

/-- Commit the offsets whose partitions answer without an error. -/
def commit (w : Stream ι) (i : ι) (toCommit codes : List (ℤ × ℤ)) : Stream ι :=
  (toCommit.filter fun a => codes.contains (a.1, 0)).foldl (fun w a => w.note i (.committed a.1 a.2)) w

/-- How the calls of a relay or a consumer are answered. -/
def handle (partitionCount : ℕ) (i : ι) : Handler OutboxPort (Stream ι) StreamEnv
  | .nowMs, ω, w => some (.ok ω.now, w)
  | .claimOutboxEvents nowMs leaseOwner leaseUntilMs limit, _, w =>
    let a := w.store.claimOutboxEvents nowMs leaseOwner leaseUntilMs limit
    some (.ok a.1, ({ w with store := a.2 } : Stream ι).note i (.claimed nowMs limit a.1))
  | .findMessage messageId, _, w => some (.ok (w.store.findMessage messageId), w)
  | .markOutboxProcessed eventId nowMs, _, w =>
    some (.ok (), { w with store := w.store.markOutboxProcessed eventId nowMs })
  | .countUnprocessedOutboxEvents, _, w => some (.ok w.store.countUnprocessedOutboxEvents, w)
  | .insertMessage draft, _, w =>
    let a := w.store.insertMessage draft
    some (.ok a.1, { w with store := a.2 })
  | .publish batch _, ω, w =>
    let w' := w.appendBatch partitionCount batch ω.appended
    match ω.publish with
    | .ok outcomes => some (.ok outcomes, w'.note i (.published batch outcomes))
    | .error e => some (.error e, w')
  | .produce p gap value, _, w => some (.ok (), w.append p gap value)
  | .record _, _, w => some (.ok (), w)
  | .load, _, w => some (.ok (w.consumer i), w.note i .began)
  | .save s, _, w => some (.ok (), { w with consumer := Function.update w.consumer i s })
  | .connectTo, ω, w => some (.ok ω.reachable, w)
  | .metadataPartitions, ω, w => some (.ok (ω.fate.answer ω.partitions), w)
  | .offsetFetchAll parts, ω, w =>
    some (.ok (ω.fate.answer (w.offsetsOf i parts ω.failing)), w)
  | .listOffsets timestamp _, ω, w =>
    if timestamp = -2 ∧ w.earliestOk ω.offsets = false then none
    else some (.ok (ω.fate.answer ω.offsets), w)
  | .fetchAll positions, ω, w =>
    if w.FetchOk positions ω.response then
      some (.ok (ω.fate.answer ω.response), w.note i (.fetched positions))
    else none
  | .recordDeadLetter r, ω, w =>
    match ω.deadLetter with
    | some e => some (.error e, w.note i .aborted)
    | none =>
      some (.ok (),
        ({ w with store := w.store.recordDeadLetter r } : Stream ι).note i (.rejected r))
  | .handle r, ω, w =>
    match ω.handled with
    | .ok d => some (.ok d, w.note i (.handled r d))
    | .error e => some (.error e, w.note i .aborted)
  | .duplicate r, _, w => some (.ok (), w.note i (.seen r))
  | .preCommitHook, ω, w =>
    match ω.hook with
    | some e => some (.error e, w)
    | none => some (.ok (), w)
  | .offsetCommitAll toCommit, ω, w =>
    some (.ok (ω.fate.answer ω.codes), w.commit i toCommit ω.codes)

end Stream

/-! ### The system -/

/-- The operations: a scan of a relay, a poll of a consumer, a message that is accepted, and a
record that somebody else adds to the topic. -/
inductive StreamOp where
  | runScan
  | poll
  | accept (draft : Message)
  | produce (partition : ℤ) (gap : ℕ) (value : String)

inductive StreamReply where
  | scanned (claimedCount : ℕ)
  | polled (result : OutboxConsumeResult)
  | accepted (m : Message)
  | done

/-- The parameters of the relays and consumers, and the number of partitions of the topic. -/
structure StreamSetup (ι : Type) where
  relay : ι → LocalOutboxRelay
  consumer : ι → KafkaEventConsumer
  partitionCount : ℕ

namespace StreamSetup

variable {ι : Type} (T : StreamSetup ι)

/-- The programs of the operations. -/
def code (i : ι) : StreamOp → OutboxCode StreamReply
  | .runScan => do return .scanned (← (T.relay i).runScan)
  | .poll => do return .polled (← (T.consumer i).poll)
  | .accept draft => do
      let m : Message ← OutboxCode.ask (.insertMessage draft)
      return .accepted m
  | .produce p gap value => do
      OutboxCode.ask (.produce p gap value)
      return .done

variable [DecidableEq ι]

/-- The relays and consumers, interleaved at their single calls. -/
def system : Parallel OutboxPort ι (Stream ι) StreamEnv StreamOp StreamReply :=
  ⟨Stream.handle T.partitionCount, T.code⟩

/-- A state: the stream, the operations in progress and those that have ended. -/
abbrev State (ι : Type) := Parallel.Config OutboxPort ι (Stream ι) StreamOp StreamReply

abbrev Step (a b : State ι) : Prop := T.system.Step a b

end StreamSetup

/-- A state in which nothing has been done yet: the store has its events under their own ids,
and the topic is in order. -/
structure Stream.Initial {ι : Type} (w : Stream ι) : Prop where
  events : ∀ n e, w.store.outboxEvent n = some e → e.id = n
  sorted : ∀ p, (w.log p).Pairwise fun r r' => r.offset < r'.offset
  bounded : ∀ p, ∀ r ∈ w.log p, r.offset < w.logEnd p
  consumer : ∀ i, w.consumer i = {}
  history : w.history = []

/-- The states that relays and consumers can reach. -/
def StreamSetup.Reachable {ι : Type} [DecidableEq ι] (T : StreamSetup ι) (a : State ι) : Prop :=
  ∃ w : Stream ι, w.Initial ∧ ReflTransGen T.Step (Parallel.Config.initial w) a

end MuduoChat
