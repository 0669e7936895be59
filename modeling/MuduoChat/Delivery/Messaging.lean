import MuduoChat.Delivery.Coordinator

/-!
# Reliable messaging

The operations that the network layer sees: accepting a command durably and at most once,
acknowledging, sessions coming and going, wakeups, and the periodic tick that expires, cleans
up and retries.  All operations of one instance hold its mutex for their whole duration.
-/

namespace MuduoChat

open Std Code

/-- An instance of reliable messaging is given by the parameters of its coordinator. -/
abbrev ReliableMessaging := Coordinator

namespace ReliableMessaging

/-- Claim for the recipients of an accepted message.  What is accepted stays accepted,
whatever happens here. -/
def notifyAcceptedBestEffort (rm : ReliableMessaging) (recipients : List UserId) : Code Unit :=
  (rm.onAccepted recipients).tryCatch fun _ => pure ()

/-- The row that is created for a recipient. -/
def newDelivery (accepted : Message) (expiresAtMs : ℤ) (recipient : UserId) : Delivery :=
  { messageId := accepted.id
    conversationId := accepted.conversationId
    recipient := recipient
    expiresAtMs := expiresAtMs }

def recordAccepted (draft accepted : Message) (recipients : List UserId) : Code Unit := do
  record (.accept .accepted)
  record (.acceptedTimestamp accepted.id.value draft.acceptedAtMs)
  Prog.when (isLegacyClientMessageId draft.command.clientMessageId.value) (record .legacyMode)
  Prog.forEach
    (fun u => record (.deliveryCreated (deliveryMetricId accepted.id.value u.value)
      draft.acceptedAtMs))
    recipients

def outcomeOf (m : Message) (duplicate : Bool) : AcceptOutcome :=
  { ok := true
    duplicate := duplicate
    messageId := m.id
    conversationId := m.conversationId
    sequence := m.sequence }

/-- The answer for a key that was used for another payload. -/
def conflictOutcome : AcceptOutcome := { error := .idempotencyConflict }

/-- Accept a command whose key has been used before. -/
def acceptAgain (rm : ReliableMessaging) (existing : Message) (cmd : SendMessageCommand) :
    Code AcceptOutcome :=
  if samePayload existing.command cmd then do
    record (.accept .duplicate)
    rm.notifyAcceptedBestEffort (recipientsFor existing.command)
    pure (outcomeOf existing true)
  else do
    record (.accept .conflict)
    pure conflictOutcome

/-- Accept a command whose key is new. -/
def acceptNew (rm : ReliableMessaging) (sender : SessionIdentity) (cmd : SendMessageCommand) :
    Code AcceptOutcome := do
  let conversationId ← store (.getOrCreateConversation sender cmd)
  let acceptedAtMs ← nowMs
  let draft : Message :=
    { senderId := sender.userId
      command := cmd
      conversationId := conversationId
      acceptedAtMs := acceptedAtMs }
  let accepted ← store (.insertMessage draft)
  let now ← nowMs
  Prog.forEach
    (fun u => store (.insertDelivery
      (newDelivery accepted (now + rm.config.messageRetentionMs) u)))
    (recipientsFor cmd)
  recordAccepted draft accepted (recipientsFor cmd)
  rm.notifyAcceptedBestEffort (recipientsFor cmd)
  pure (outcomeOf accepted false)

/-- What is recorded when accepting ends in an exception. -/
def recordRefusal (e : Fault) : Code Unit :=
  match e with
  | .store .tooManyRecipients => record (.accept .tooManyRecipients)
  | .store .idempotencyConflict => record (.accept .conflict)
  | _ => pure ()

/-- Accept a command.  Under one key of one sender a message is accepted at most once. -/
def accept (rm : ReliableMessaging) (sender : SessionIdentity) (cmd : SendMessageCommand) :
    Code AcceptOutcome := do
  match ← store (.findAccepted cmd.clientMessageId sender.userId) with
  | some existing => rm.acceptAgain existing cmd
  | none =>
    (rm.acceptNew sender cmd).tryCatch fun e => do
      recordRefusal e
      .fail e

/-- The next time the scheduler has to look: the earliest of the scheduled attempts, and at
the latest after the time an acknowledgement is given. -/
def computeNextWakeMs (nowMs ackTimeoutMs : ℤ) (nextAttemptAtMs : List ℤ) : ℤ :=
  let wakeMs := nextAttemptAtMs.foldl
    (fun wakeMs next =>
      let remain := if next - nowMs < 1 then 1 else next - nowMs
      if remain < wakeMs then remain else wakeMs)
    ackTimeoutMs
  if wakeMs < 1 then 1 else wakeMs

/-- Round up to the granularity of the store. -/
def alignUp (granularityMs : ℕ) (t : ℤ) : ℤ :=
  (t + granularityMs - 1).tdiv granularityMs * granularityMs

/-- The time to the next tick. -/
def wakeAfter (config : RetryConfig) (now : ℤ) (granularityMs : ℕ) (nextAttempts : List ℤ) :
    ℤ :=
  let aligned := nextAttempts.map (alignUp granularityMs)
  let wake := computeNextWakeMs now config.ackTimeoutMs aligned
  match aligned with
  | first :: rest =>
    let remain := rest.foldl (fun earliest t => if t < earliest then t else earliest) first - now
    if granularityMs > 1 ∧ remain ≥ 1 ∧ remain ≤ config.ackTimeoutMs + granularityMs - 1 then
      remain
    else
      wake
  | [] => wake

/-- Record the rows that a tick has expired. -/
def recordExpired (expired : List ExpiredDeliveryRecord) : Code Unit :=
  Prog.forEach
    (fun r => do
      recordTransition ⟨r.messageId⟩ ⟨r.recipient⟩ r.fromState .expired
      recordEviction ⟨r.messageId⟩ ⟨r.recipient⟩)
    expired

/-- Clean up, if the last time is long enough ago. -/
def cleanup (rm : ReliableMessaging) (now : ℤ) : Code Unit := do
  let p ← load
  if now - p.lastCleanupMs ≥ rm.config.cleanupCycleMs then do
    save { p with lastCleanupMs := now }
    let _ ← store (.cleanupDeliveries (now - rm.config.ackedRetentionMs)
      (now - rm.config.expiredRetentionMs) rm.config.cleanupBatch)
    pure ()
  else
    pure ()

/-- One tick: expire, clean up, retry.  The answer is the time to the next tick. -/
def runTick (rm : ReliableMessaging) : Code ℤ := do
  let now ← nowMs
  let expired ← store (.expireDeliveriesDetailed now rm.config.retryBatchLimit)
  recordExpired expired
  rm.cleanup now
  let nextAttempts ← rm.runRetryScan now
  let granularityMs ← store .timeGranularityMs
  pure (wakeAfter rm.config now granularityMs nextAttempts)

/-- A tick whose exceptions are dropped. -/
def runTickBestEffort (rm : ReliableMessaging) : Code ℤ :=
  rm.runTick.tryCatch fun _ => pure (-1)

/-- A session has come up.  This also runs a tick. -/
def sessionAvailable (rm : ReliableMessaging) (session : SessionIdentity) : Code Unit := do
  Coordinator.sessionAvailable rm session
  let _ ← rm.runTickBestEffort
  pure ()

/-- A message has been accepted elsewhere.  Unlike after `accept`, exceptions are passed
on. -/
def wakeupAccepted (rm : ReliableMessaging) (recipients : List UserId) : Code Unit :=
  rm.onAccepted recipients

end ReliableMessaging

end MuduoChat
