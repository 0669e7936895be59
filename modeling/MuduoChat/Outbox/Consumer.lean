import MuduoChat.Outbox.Port

/-!
# The consumer of the event stream

One poll fetches a batch of records, deals with them one by one and commits the offsets behind
them, if all of them have been dealt with.  The consumer remembers for a bounded number of
conversations which messages it has dealt with and the last sequence; a conversation that comes
in when the bound is reached drops the one that came in first.

The JSON library is a parameter: `parse` answers `none` for a text that is not JSON.
-/

namespace MuduoChat

open Std OutboxCode

/-- The field of an object, if it is an unsigned number. -/
def Json.unsigned? (key : String) (js : Json) : Option ℕ :=
  match js.field? key with
  | some (.unsigned n) => some (n % 2 ^ 64)
  | _ => none

/-- The field of an object, if it is a string. -/
def Json.string? (key : String) (js : Json) : Option String :=
  match js.field? key with
  | some (.str s) => some s
  | _ => none

def Json.isObject : Json → Bool
  | .obj _ => true
  | _ => false

/-- The fields of a record's value. -/
structure Envelope where
  messageId : ℕ
  conversationId : ℕ
  sequence : ℕ
  eventType : String
  payload : String
  deriving DecidableEq, Repr

lemma hundred_pos : 0 < 100 := by decide

/-- The parameters with which a consumer is constructed.  A limit or a capacity of zero is
replaced in the constructor. -/
structure KafkaEventConsumer where
  topic : String := "muduo-outbox"
  fetchBatchLimit : ℕ := 100
  seenConversationsCapacity : ℕ := 100
  parse : String → Option Json
  limit_pos : 0 < fetchBatchLimit := by first | exact hundred_pos | decide
  capacity_pos : 0 < seenConversationsCapacity := by first | exact hundred_pos | decide

/-- Why a record is rejected before the handler sees it. -/
inductive RejectReason where
  | poisonPayload
  | unknownEventType
  | sequenceRegression
  | sequenceConflict
  deriving DecidableEq, Repr

def RejectReason.text : RejectReason → String
  | .poisonPayload => "poison_payload"
  | .unknownEventType => "unknown_event_type"
  | .sequenceRegression => "sequence_regression"
  | .sequenceConflict => "sequence_conflict"

inductive Verdict where
  | reject (r : ConsumedOutboxRecord) (reason : RejectReason)
  | duplicate (r : ConsumedOutboxRecord)
  | handle (r : ConsumedOutboxRecord)
  deriving DecidableEq, Repr

/-! ### The memory of conversations -/

namespace ConsumerState

/-- The message has been dealt with, as far as the consumer remembers. -/
def hasSeen (s : ConsumerState) (r : ConsumedOutboxRecord) : Bool :=
  match s.seenMessages[r.conversationId]? with
  | some ids => ids.contains r.messageId
  | none => false

/-- Forget the conversation that came in first. -/
def dropOldest (s : ConsumerState) : ConsumerState :=
  match s.conversationOrder with
  | [] => s
  | oldest :: rest =>
    { s with
      conversationOrder := rest
      lastSeen := s.lastSeen.erase oldest
      seenMessages := s.seenMessages.erase oldest }

/-- Make room for a conversation that is new, and put it last. -/
def touchConversation (s : ConsumerState) (capacity conversationId : ℕ) : ConsumerState :=
  if s.lastSeen.contains conversationId then s
  else
    let s' := if capacity ≤ s.conversationOrder.length then s.dropOldest else s
    { s' with conversationOrder := s'.conversationOrder ++ [conversationId] }

/-- Remember that a message has been dealt with. -/
def addSeen (s : ConsumerState) (r : ConsumedOutboxRecord) : ConsumerState :=
  { s with
    seenMessages := s.seenMessages.insert r.conversationId
      ((s.seenMessages[r.conversationId]?.getD ∅).insert r.messageId) }

/-- Remember the sequence of a record, unless a later one has been seen. -/
def raiseLastSeen (s : ConsumerState) (r : ConsumedOutboxRecord) : ConsumerState :=
  match s.lastSeen[r.conversationId]? with
  | some (sequence, _) =>
    if sequence < r.sequence then
      { s with lastSeen := s.lastSeen.insert r.conversationId (r.sequence, r.messageId) }
    else s
  | none => { s with lastSeen := s.lastSeen.insert r.conversationId (r.sequence, r.messageId) }

/-- The memory after the handler has dealt with a record. -/
def advance (s : ConsumerState) (capacity : ℕ) (r : ConsumedOutboxRecord)
    (d : ConsumeDisposition) : ConsumerState :=
  let s₁ := if d = .deadLettered then s else s.addSeen r
  (s₁.touchConversation capacity r.conversationId).raiseLastSeen r

end ConsumerState

namespace KafkaEventConsumer

/-! ### One record -/

def envelope? (K : KafkaEventConsumer) (value : String) : Option Envelope := do
  let env ← K.parse value
  let messageId ← env.unsigned? "message_id"
  let conversationId ← env.unsigned? "conversation_id"
  let sequence ← env.unsigned? "sequence"
  let eventType ← env.string? "event_type"
  let payload ← env.string? "payload"
  let inner ← K.parse payload
  if inner.isObject then some ⟨messageId, conversationId, sequence, eventType, payload⟩ else none

/-- A record whose value is no envelope.  Its message is named if that much can be read. -/
def poisoned (K : KafkaEventConsumer) (raw : FetchedRecord) : ConsumedOutboxRecord :=
  { topic := K.topic
    partition := raw.partition
    offset := raw.offset
    messageId := ((K.parse raw.value).bind (Json.unsigned? "message_id")).getD 0 }

def consumed (K : KafkaEventConsumer) (raw : FetchedRecord) (env : Envelope) :
    ConsumedOutboxRecord :=
  { topic := K.topic
    partition := raw.partition
    offset := raw.offset
    messageId := env.messageId
    conversationId := env.conversationId
    sequence := env.sequence
    eventType := env.eventType
    payload := env.payload }

/-- What is to be done with a record that has an envelope. -/
def judge (s : ConsumerState) (r : ConsumedOutboxRecord) : Verdict :=
  if r.eventType ≠ "MessageAccepted" then .reject r .unknownEventType
  else if s.hasSeen r then .duplicate r
  else
    match s.lastSeen[r.conversationId]? with
    | none => .handle r
    | some (sequence, messageId) =>
      if r.sequence < sequence then .reject r .sequenceRegression
      else if r.sequence = sequence ∧ r.messageId ≠ messageId then .reject r .sequenceConflict
      else .handle r

def classify (K : KafkaEventConsumer) (s : ConsumerState) (raw : FetchedRecord) : Verdict :=
  match K.envelope? raw.value with
  | none => .reject (K.poisoned raw) .poisonPayload
  | some env => judge s (K.consumed raw env)

def deadLetter (r : ConsumedOutboxRecord) (reason : RejectReason) (rawValue : String) :
    DeadLetterRecord :=
  { topic := r.topic
    partitionId := r.partition
    kafkaOffset := r.offset
    messageId := r.messageId
    conversationId := r.conversationId
    sequence := r.sequence
    eventType := r.eventType
    reason := reason.text
    rawValue := rawValue }

/-- Deal with one record.  If that fails, the batch is given up. -/
def processRecord (K : KafkaEventConsumer) (s : ConsumerState) (raw : FetchedRecord) :
    OutboxCode (Option (ConsumedOutboxRecord × ConsumeDisposition) × ConsumerState) :=
  match K.classify s raw with
  | .reject r reason =>
    catchAll (do
      ask (.recordDeadLetter (deadLetter r reason raw.value))
      pure (some (r, .deadLettered), s)) (pure (none, s))
  | .duplicate r => do
      ask (.duplicate r)
      pure (some (r, .duplicateNoOp), s)
  | .handle r =>
    catchAll (do
      let d : ConsumeDisposition ← ask (.handle r)
      pure (some (r, d), s.advance K.seenConversationsCapacity r d)) (pure (none, s))

/-! ### One batch -/

/-- What has been dealt with in a poll so far. -/
abbrev Disposed := List (ConsumedOutboxRecord × ConsumeDisposition)

/-- Deal with one record after the other, until the limit is reached or one of them fails.  The
answer begins with whether the batch has been given up. -/
def processAll (K : KafkaEventConsumer) :
    ConsumerState → Disposed → List FetchedRecord → OutboxCode (Bool × Disposed × ConsumerState)
  | s, done, [] => pure (false, done, s)
  | s, done, raw :: rest =>
    if done.length < K.fetchBatchLimit then do
      let (outcome, s) ← K.processRecord s raw
      match outcome with
      | none => pure (true, done, s)
      | some d => K.processAll s (done ++ [d]) rest
    else
      pure (false, done, s)

/-- Move the offset that is to be committed for the partition of a record behind the record. -/
def raiseCommit (m : TreeMap ℤ ℤ) (r : ConsumedOutboxRecord) : TreeMap ℤ ℤ :=
  match m[r.partition]? with
  | some c => if r.offset + 1 > c then m.insert r.partition (r.offset + 1) else m
  | none => m.insert r.partition (r.offset + 1)

/-- For each partition, the offset behind the last record that has been dealt with. -/
def toCommit (done : Disposed) : TreeMap ℤ ℤ :=
  done.foldl (fun m d => raiseCommit m d.1) ∅

/-- What has been committed, according to the answer. -/
def committedOk (toCommit : TreeMap ℤ ℤ) (answer : List (ℤ × ℤ)) : TreeMap ℤ ℤ :=
  answer.foldl
    (fun (m : TreeMap ℤ ℤ) (a : ℤ × ℤ) =>
      match toCommit[a.1]? with
      | some c => if a.2 = 0 then m.insert a.1 c else m
      | none => m)
    ∅

/-- The answer to a request, and what it does to the connection. -/
def settle {α : Type} (s : ConsumerState) : Rpc α → Option α × ConsumerState
  | .ok a => (some a, s)
  | .refused => (none, s)
  | .closed => (none, { s with connected := false })

end KafkaEventConsumer

/-- The answer of a poll. -/
structure OutboxConsumeResult where
  records : List ConsumedOutboxRecord := []
  dispositions : List ConsumeDisposition := []
  processed : Bool := false
  offsetCommitted : Bool := false
  committedThrough : List (ℤ × ℤ) := []
  brokerOk : Bool := true
  deriving DecidableEq, Repr

namespace KafkaEventConsumer

/-- The answer of a poll in which the broker has failed. -/
def brokerFailed : OutboxConsumeResult := { brokerOk := false }

/-- The answer of a poll that has dealt with some records. -/
def resultOf (done : Disposed) (processed : Bool) : OutboxConsumeResult :=
  { records := done.map Prod.fst, dispositions := done.map Prod.snd, processed := processed }

/-- Commit the offsets behind the records of a batch, and move the cursors of the partitions for
which that has succeeded. -/
def commitBatch (s : ConsumerState) (done : Disposed) :
    OutboxCode (OutboxConsumeResult × ConsumerState) := do
  let answer : Rpc (List (ℤ × ℤ)) ← ask (.offsetCommitAll (toCommit done).toList)
  match settle s answer with
  | (none, s) => pure (resultOf done true, s)
  | (some codes, s) =>
    let committed := committedOk (toCommit done) codes
    pure ({ resultOf done true with
              committedThrough := committed.toList
              offsetCommitted := !committed.isEmpty },
      { s with cursor := committed.foldl (fun m p c => m.insert p c) s.cursor })

def consume (K : KafkaEventConsumer) (s : ConsumerState) (fetched : List FetchedRecord) :
    OutboxCode (OutboxConsumeResult × ConsumerState) := do
  let (aborted, done, s) ← K.processAll s [] fetched
  if aborted then
    pure (resultOf done false, s)
  else if done.isEmpty then
    pure (resultOf done true, s)
  else do
    let goOn ← catchAll (do
      ask .preCommitHook
      pure true) (pure false)
    if goOn then commitBatch s done else pure (resultOf done true, s)

/-! ### Fetching -/

/-- The records of an answer, unless a batch has another format. -/
def parseRecordSet (partition : ℤ) : List RecordBatch → Option (List FetchedRecord)
  | [] => some []
  | b :: batches =>
    if b.magic = 2 then
      (parseRecordSet partition batches).map fun rest =>
        (b.records.map fun r => ⟨partition, b.baseOffset + r.1, r.2⟩) ++ rest
    else
      none

/-- Add the answer for one partition to what has been gathered: the records by partition, and
the partitions whose cursor is out of range. -/
def gatherPartition (acc : TreeMap ℤ (List FetchedRecord) × List ℤ) (d : PartitionData) :
    Option (TreeMap ℤ (List FetchedRecord) × List ℤ) :=
  if d.error = 1 ∨ d.error = 3 then
    some (acc.1, acc.2 ++ [d.partition])
  else if d.error ≠ 0 then
    none
  else
    match d.batches with
    | none => some acc
    | some batches =>
      (parseRecordSet d.partition batches).map fun parsed =>
        (acc.1.insert d.partition (acc.1[d.partition]?.getD [] ++ parsed), acc.2)

/-- The records of an answer in the order of their partitions, and the partitions that are out of
range. -/
def gather (response : List PartitionData) : Option (List FetchedRecord × List ℤ) :=
  (response.foldlM gatherPartition (∅, [])).map fun acc =>
    (acc.1.toList.flatMap Prod.snd, acc.2)

/-- The offset at which a partition is read next. -/
def position (s : ConsumerState) (p : ℤ) : ℤ := s.cursor[p]?.getD 0

/-- Fetch from all partitions.  An answer that cannot be read closes the connection. -/
def fetchFrom (s : ConsumerState) :
    OutboxCode (Option (List FetchedRecord × List ℤ) × ConsumerState) := do
  let answer : Rpc (List PartitionData) ←
    ask (.fetchAll (s.partitions.map fun p => (p, position s p)))
  match settle s answer with
  | (none, s) => pure (none, { s with connected := false })
  | (some response, s) =>
    match gather response with
    | none => pure (none, { s with connected := false })
    | some fetched => pure (some fetched, s)

/-- Go back to the beginning of the partitions that are out of range. -/
def rewind : ConsumerState → List ℤ → OutboxCode (Bool × ConsumerState)
  | s, [] => pure (true, s)
  | s, p :: rest => do
      let answer : Rpc (List (ℤ × ℤ)) ← ask (.listOffsets (-2) [p])
      match settle s answer with
      | (none, s) => pure (false, s)
      | (some offsets, s) =>
        let earliest : TreeMap ℤ ℤ := .ofList offsets
        rewind { s with
          cursor := s.cursor.insert p (earliest[p]?.getD 0)
          rebalanceCount := s.rebalanceCount + 1 } rest

/-! ### The first poll -/

/-- The offsets that have been committed.  An error of a partition counts as none. -/
def committedOffsets (answer : List (ℤ × ℤ × ℤ)) : TreeMap ℤ ℤ :=
  .ofList (answer.map fun a => (a.1, if a.2.2 = 0 then a.2.1 else -1))

/-- Where a partition is read first: at the offset that has been committed, unless there is none
or it lies beyond the end. -/
def startAt (committed earliest latest : TreeMap ℤ ℤ) (p : ℤ) : ℤ × Bool :=
  let off := committed[p]?.getD (-1)
  let first := earliest[p]?.getD 0
  if off < 0 then (first, true)
  else
    match latest[p]? with
    | some last => if off > last then (first, true) else (off, false)
    | none => (off, false)

/-- Set the cursors of all partitions. -/
def restore (s : ConsumerState) (committed earliest latest : TreeMap ℤ ℤ) : ConsumerState :=
  let starts := s.partitions.map fun p => (p, startAt committed earliest latest p)
  let cursor := starts.foldl (fun m a => m.insert a.1 a.2.1) s.cursor
  let lag (p : ℤ) : ℕ :=
    match latest[p]?, cursor[p]? with
    | some last, some c => (last - c).toNat
    | _, _ => 0
  { s with
    cursor := cursor
    assigned := true
    highWatermark := latest
    rebalanceCount := s.rebalanceCount + (starts.filter fun a => a.2.2).length
    consumerLag := (s.partitions.map lag).sum }

/-- Ask for the ends of the partitions and set the cursors.  The last offsets are not needed if
nothing has been committed. -/
def findStarts (s : ConsumerState) (committed : TreeMap ℤ ℤ) :
    OutboxCode (Bool × ConsumerState) := do
  let first : Rpc (List (ℤ × ℤ)) ← ask (.listOffsets (-2) s.partitions)
  match settle s first with
  | (none, s) => pure (false, s)
  | (some earliest, s) =>
    if s.partitions.any fun p => decide (0 ≤ committed[p]?.getD (-1)) then do
      let last : Rpc (List (ℤ × ℤ)) ← ask (.listOffsets (-1) s.partitions)
      match settle s last with
      | (none, s) => pure (false, s)
      | (some latest, s) =>
        pure (true, restore s committed (.ofList earliest) (.ofList latest))
    else
      pure (true, restore s committed (.ofList earliest) ∅)

/-- Find the partitions and where to begin in them. -/
def assign (s : ConsumerState) : OutboxCode (Bool × ConsumerState) := do
  let metadata : Rpc (List ℤ) ← ask .metadataPartitions
  match settle s metadata with
  | (none, s) => pure (false, s)
  | (some parts, s) =>
    let s := { s with partitions := parts }
    let offsets : Rpc (List (ℤ × ℤ × ℤ)) ← ask (.offsetFetchAll parts)
    match settle s offsets with
    | (none, s) => pure (false, s)
    | (some answer, s) => findStarts s (committedOffsets answer)

/-! ### The poll -/

/-- Open the connection, if it is not open. -/
def connect (s : ConsumerState) : OutboxCode (Bool × ConsumerState) :=
  if s.connected then pure (true, s)
  else do
    let ok : Bool ← ask .connectTo
    pure (ok, { s with connected := ok })

/-- Find the partitions, unless that has been done. -/
def ensureAssigned (s : ConsumerState) : OutboxCode (Bool × ConsumerState) :=
  if s.assigned then pure (true, s) else assign s

def fetchAndConsume (K : KafkaEventConsumer) (s : ConsumerState) :
    OutboxCode (OutboxConsumeResult × ConsumerState) := do
  match ← fetchFrom s with
  | (none, s) => pure (brokerFailed, s)
  | (some (fetched, outOfRange), s) =>
    let (ok, s) ← rewind s outOfRange
    if ok then K.consume s fetched else pure (brokerFailed, s)

/-- One poll, as a function of the memory. -/
def pollFrom (K : KafkaEventConsumer) (s : ConsumerState) :
    OutboxCode (OutboxConsumeResult × ConsumerState) := do
  ask (.record (.seenConversations s.lastSeen.size))
  let (ok, s) ← connect s
  if ok then do
    let (ok, s) ← ensureAssigned s
    if ok then K.fetchAndConsume s else pure (brokerFailed, s)
  else
    pure (brokerFailed, s)

def poll (K : KafkaEventConsumer) : OutboxCode OutboxConsumeResult := do
  let s : ConsumerState ← ask .load
  let (result, s) ← K.pollFrom s
  ask (.save s)
  pure result

end KafkaEventConsumer

end MuduoChat
