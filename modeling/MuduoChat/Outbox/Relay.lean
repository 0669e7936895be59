import MuduoChat.Outbox.Port

/-!
# The relay of the outbox

A relay claims a batch of events, hands it to the publisher and marks the events that the
publisher has taken.  The mutex of a relay is held while it claims and while it marks, not
while it publishes, so two scans of one relay can overlap.
-/

namespace MuduoChat

open OutboxCode

/-- The parameters of the outbox that a scan uses, with the defaults of the source. -/
structure OutboxConfig where
  claimBatchSize : ℕ := 100
  claimLeaseMs : ℤ := 30000

/-- The parameters with which a relay is constructed, and the name under which it leases.  The
constructor makes up a name that begins with `relay:`. -/
structure LocalOutboxRelay where
  config : OutboxConfig := {}
  topic : String := "muduo-outbox"
  publishDeadlineMs : ℤ := 5000
  leaseOwner : String
  owner_ne : leaseOwner ≠ "" := by decide

/-- What a scan has claimed, and what of it can be published. -/
structure RelayBatch where
  claimedCount : ℕ := 0
  requests : List OutboxPublishRequest := []

namespace LocalOutboxRelay

/-- The message of an event.  An event whose message cannot be read counts as poisoned. -/
def messageOf (e : OutboxEvent) : OutboxCode (Option Message) :=
  catchStd (ask (.findMessage e.aggregateMessageId)) (pure none)

def requestsFor (relay : LocalOutboxRelay) :
    List OutboxEvent → OutboxCode (List OutboxPublishRequest)
  | [] => pure []
  | e :: claimed => do
      match ← messageOf e with
      | none =>
        ask (.record .poison)
        relay.requestsFor claimed
      | some msg =>
        let rest ← relay.requestsFor claimed
        pure ({ event := e
                conversationId := msg.conversationId
                sequence := msg.sequence.value
                topic := relay.topic } :: rest)

/-- Claim a batch and prepare its requests. -/
def scanLocked (relay : LocalOutboxRelay) : OutboxCode RelayBatch := do
  let now : ℤ ← ask .nowMs
  let claimed : List OutboxEvent ← ask (.claimOutboxEvents now relay.leaseOwner
    (now + relay.config.claimLeaseMs) relay.config.claimBatchSize)
  let requests ← relay.requestsFor claimed
  pure { claimedCount := claimed.length, requests := requests }

/-- Record how many events are waiting.  Exceptions are dropped. -/
def updateLag : OutboxCode Unit :=
  catchAll (do
    let lag : ℕ ← ask .countUnprocessedOutboxEvents
    ask (.record (.lag lag))) (pure ())

/-- The answers of the publisher.  If it throws, or if it answers for another number of requests,
there are none. -/
def publishAll (relay : LocalOutboxRelay) (requests : List OutboxPublishRequest) :
    OutboxCode (List OutboxPublishOutcome) := do
  let outcomes : List OutboxPublishOutcome ←
    catchStd (ask (.publish requests relay.publishDeadlineMs)) (do
      Prog.forEach (fun _ => ask (.record .poison)) requests
      pure [])
  pure (if outcomes.length ≠ requests.length then [] else outcomes)

/-- Mark an event whose publication has succeeded, and count the others. -/
def markOne (outcomes : List OutboxPublishOutcome) (request : OutboxPublishRequest × ℕ) :
    OutboxCode Unit :=
  if (outcomes[request.2]?.map OutboxPublishOutcome.ok).getD false then
    catchStd (do
      let now : ℤ ← ask .nowMs
      ask (.markOutboxProcessed request.1.event.id now)) (ask (.record .poison))
  else
    ask (.record .poison)

/-- Publish what has been claimed, and mark what has been published. -/
def publishAndMark (relay : LocalOutboxRelay) (plan : RelayBatch) : OutboxCode Unit :=
  if plan.requests.isEmpty then
    updateLag
  else do
    let outcomes ← relay.publishAll plan.requests
    Prog.forEach (markOne outcomes) plan.requests.zipIdx
    updateLag

/-- One scan.  The answer is the number of events that have been claimed. -/
def runScan (relay : LocalOutboxRelay) : OutboxCode ℕ := do
  let plan ← relay.scanLocked
  relay.publishAndMark plan
  pure plan.claimedCount

end LocalOutboxRelay

end MuduoChat
