import MuduoChat.Store.Sql

/-!
# The MySQL adapter of the message store

The calls of the message store as programs of statements.  An accept is one transaction that
spans several calls: it begins with the lookup of the conversation and is committed with the
last of the expected deliveries.  In between it is kept in a context of the calling thread;
each process drives the store from one thread.  Before most statements of an accept, and after
its commit, the adapter fires a hook through which tests let it throw.
-/

namespace MuduoChat

open Std

/-- The context of an accept: the transaction guard, as the flag that says whether it is open,
and the deliveries that belong to the transaction. -/
structure AcceptTx where
  guard : Option Bool := none
  expectedDeliveries : ℕ := 0
  insertedDeliveries : ℕ := 0
  deriving DecidableEq, Repr

/-- The steps of an accept at which the hook is fired. -/
inductive HookStep where
  | findConversation
  | createConversation
  | createConversationLink
  | recoverConversation
  | lockConversation
  | advanceSequence
  | insertMessage
  | recoverMessage
  | insertOutboxEvent
  | insertDelivery
  | commit
  deriving DecidableEq, Repr

/-- What a process calls at the level of statements: the statements, the hook, the context of
its thread, and whatever it calls outside the store. -/
inductive WireCall where
  | sql (c : Sql)
  | fire (step : HookStep)
  | getTx
  | setTx (tx : AcceptTx)
  | port (c : Call)

def WireCall.Value : WireCall → Type
  | .sql c => c.Value
  | .fire _ => Unit
  | .getTx => AcceptTx
  | .setTx _ => Unit
  | .port c => c.Value

/-- The interface of a process at the level of statements. -/
def Wire : Sig := ⟨WireCall, WireCall.Value, Fault⟩

/-- The programs of the adapter. -/
abbrev Query (α : Type) := Prog Wire α

/-! ### Columns -/

def rowKey (d : Delivery) : RowKey := ⟨d.messageId.value, toColumn d.recipient.value⟩

/-- The function `FROM_UNIXTIME`.  There is no time before the epoch; the upper end, from which on
the function gives `NULL` too, is left out. -/
def fromUnixtime (secs : ℤ) : Option ℤ := if secs < 0 then none else some secs

/-- A time in a column of whole seconds, rounded down.  Zero is `NULL`. -/
def secondsDown (ms : ℤ) : Option ℤ := if ms = 0 then none else fromUnixtime (ms.tdiv 1000)

/-- A time in a column of whole seconds, rounded up.  Zero is `NULL`. -/
def secondsUp (ms : ℤ) : Option ℤ := if ms = 0 then none else fromUnixtime ((ms + 999).tdiv 1000)

/-- A column of whole seconds as it is read. -/
def secsToMs : Option ℤ → ℤ
  | some secs => secs * 1000
  | none => 0

/-- The text of a lease owner: user, generation and boot id. -/
def encodeLeaseOwner (owner : SessionIdentity) (bootId : ℕ) : String :=
  if owner.userId.value = 0 then ""
  else
    toString owner.userId.value ++ ":" ++ toString owner.generation ++ ":" ++ toString bootId

/-- The digits at the beginning of a text. -/
def leadingNumber (cs : List Char) : ℕ :=
  (cs.takeWhile Char.isDigit).foldl (fun n c => n * 10 + (c.toNat - 48)) 0

/-- The number at the beginning of a text, at most the largest one of 64 bits.  A number with a
sign is taken modulo `2 ^ 64`, unless it is too large. -/
def strtoull (cs : List Char) : ℕ :=
  match cs.dropWhile fun c => c ∈ [' ', '\t', '\n', '\x0b', '\x0c', '\r'] with
  | '-' :: digits =>
    if 2 ^ 64 ≤ leadingNumber digits then 2 ^ 64 - 1
    else (2 ^ 64 - leadingNumber digits) % 2 ^ 64
  | '+' :: digits => min (leadingNumber digits) (2 ^ 64 - 1)
  | digits => min (leadingNumber digits) (2 ^ 64 - 1)

/-- The lease owner of a text.  A text without a boot id has the boot id zero. -/
def decodeLeaseOwner (text : List Char) : Except StoreErrorKind (SessionIdentity × ℕ) :=
  if text.isEmpty then .ok ({}, 0)
  else
    let uid := text.takeWhile fun c => c ≠ ':'
    let rest := (text.dropWhile fun c => c ≠ ':').drop 1
    if uid.isEmpty ∨ rest.isEmpty then .error .storage
    else
      let gen := rest.takeWhile fun c => c ≠ ':'
      let boot := (rest.dropWhile fun c => c ≠ ':').drop 1
      .ok (⟨⟨strtoull uid⟩, strtoull gen⟩, strtoull boot)

/-- The columns of a delivery. -/
def rowOf (d : Delivery) : DeliveryRow where
  state := d.state
  attemptCount := d.attemptCount % 2 ^ 32
  leaseOwner :=
    if d.leaseOwner.userId.value = 0 then none
    else some (encodeLeaseOwner d.leaseOwner d.leaseBootId)
  leaseUntil := secondsDown d.leaseUntilMs
  acknowledgedAt := secondsDown d.acknowledgedAtMs
  expiresAt := secondsDown d.expiresAtMs
  lastSentAt := secondsDown d.lastSentAtMs
  nextAttemptAt := secondsUp d.nextAttemptAtMs

/-- The deliveries of a result.  The buffer of the lease owner is shared by all rows, and a
`NULL` in that column leaves in it what the row before had. -/
def decodeRows : List Char → List SelectedDelivery → Except StoreErrorKind (List Delivery)
  | _, [] => .ok []
  | buffer, s :: rows => do
      let buffer := (s.row.leaseOwner.map String.toList).getD buffer
      let (leaseOwner, leaseBootId) ← decodeLeaseOwner buffer
      let d : Delivery :=
        { messageId := ⟨s.key.first⟩
          recipient := ⟨ofColumn s.key.second⟩
          conversationId := ⟨s.conversationId⟩
          sequence := ⟨s.sequence⟩
          state := s.row.state
          attemptCount := s.row.attemptCount
          leaseOwner := leaseOwner
          leaseBootId := leaseBootId
          leaseUntilMs := secsToMs s.row.leaseUntil
          acknowledgedAtMs := secsToMs s.row.acknowledgedAt
          expiresAtMs := secsToMs s.row.expiresAt
          lastSentAtMs := secsToMs s.row.lastSentAt
          nextAttemptAtMs := secsToMs s.row.nextAttemptAt }
      let rest ← decodeRows buffer rows
      pure (d :: rest)

/-- The command of a snapshot, before it is told which exception was thrown. -/
def readCommandSnapshot (payload : Json) (content : String) (clientMessageId : ClientMessageId) :
    Except Json.Error SendMessageCommand := do
  let kind ← (← payload.atKey "kind").getString
  if kind = "DIRECT" then
    let recipient ← (← payload.atKey "direct_recipient").getUInt64
    pure { clientMessageId, content, kind := .direct, directRecipient := ⟨recipient⟩ }
  else if kind = "GROUP" then
    let groupId ← (← payload.atKey "group_id").getUInt64
    let members ← (← payload.atKey "members").elements.mapM Json.getUInt64
    pure { clientMessageId, content, kind := .group, groupId := ⟨groupId⟩,
           members := members.map fun u => ⟨u⟩ }
  else
    .error .typeError

/-- The command of a snapshot.  Whatever is wrong with it is an error of the storage. -/
def decodeCommandSnapshot (payload : Json) (content : String) (clientMessageId : ClientMessageId) :
    Except StoreErrorKind SendMessageCommand :=
  (readCommandSnapshot payload content clientMessageId).mapError fun _ => .storage

namespace MySQLMessageStore

def sql (c : Sql) : Query c.Value := Prog.ask (E := Wire) (.sql c)

def getTx : Query AcceptTx := Prog.ask (E := Wire) .getTx

def setTx (tx : AcceptTx) : Query Unit := Prog.ask (E := Wire) (.setTx tx)

def fire (step : HookStep) : Query Unit := Prog.ask (E := Wire) (.fire step)

def throwStore {α : Type} (kind : StoreErrorKind) : Query α := .fail (.store kind)

/-! ### The transaction of an accept -/

/-- Lease a connection of the pool. -/
def acquire : Query Unit := do
  let leased : Bool ← sql .acquire
  if leased then pure () else throwStore .dependencyBusy

/-- The constructor of the transaction guard. -/
def openGuard : Query Unit := do
  acquire
  let isolated : Bool ← sql .setIsolation
  if isolated then sql .startTransaction else throwStore .dependencyBusy

/-- Commit what the guard has open.  After a failed commit it is rolled back.  The flag stays
set after a commit that works, so that the destructor rolls back nothing. -/
def commitGuard : Query Unit := do
  let tx ← getTx
  match tx.guard with
  | some true =>
    let failed : Option ℕ ← sql .commit
    match failed with
    | none => pure ()
    | some errno =>
      let rolledBack : Bool ← sql .rollback
      setTx { tx with guard := some (!rolledBack) }
      throwStore (mapStoreError errno)
  | _ => pure ()

/-- Destroy the guard, and keep the counters. -/
def rollbackTx : Query Unit := do
  let tx ← getTx
  match tx.guard with
  | some true =>
    let _ : Bool ← sql .rollback
    setTx { tx with guard := none }
  | _ => setTx { tx with guard := none }

def rollbackAndClear : Query Unit := do
  rollbackTx
  setTx {}

def beginTx : Query Unit := do
  let tx ← getTx
  if tx.guard.isSome then pure ()
  else do
    openGuard
    setTx { tx with guard := some true }

def commitTx : Query Unit := do
  let tx ← getTx
  if tx.guard.isSome then do
    commitGuard
    fire .commit
    rollbackTx
    setTx {}
  else
    pure ()

/-- What another call left behind is committed first. -/
def finishPending : Query Unit := commitTx

/-- The beginning of every call outside an accept. -/
def lease : Query Unit := do
  finishPending
  acquire

/-- Roll back if the program ends in an error. -/
def guarded {α : Type} (p : Query α) : Query α :=
  p.tryCatch fun e => do
    rollbackAndClear
    .fail e

/-! ### The calls of an accept -/

/-- Make a conversation and its link.  If another one has made it in the meantime, that one is
read in a new transaction. -/
def createConversation (insertLink : ℕ → Query Bool) (find : Query (Option ℕ)) : Query ℕ := do
  fire .createConversation
  let id : ℕ ← sql .insertConversation
  fire .createConversationLink
  let duplicate ← insertLink id
  if duplicate then do
    rollbackTx
    beginTx
    fire .recoverConversation
    match ← find with
    | some existing => pure existing
    | none => throwStore .storage
  else
    pure id

/-- The conversation of a command.  A new one is made if there is none yet. -/
def findOrCreate (insertLink : ℕ → Query Bool) (find : Query (Option ℕ)) : Query ℕ := do
  fire .findConversation
  match ← find with
  | some id => pure id
  | none => createConversation insertLink find

def directConversation (low high : IntColumn) : Query ℕ :=
  findOrCreate (fun id => sql (.insertDirectConversation id low high))
    (sql (.selectDirectConversation low high))

def groupConversation (groupId : IntColumn) : Query ℕ :=
  findOrCreate (fun id => sql (.insertGroupConversation id groupId))
    (sql (.selectGroupConversation groupId))

/-- Begin an accept, and find its conversation. -/
def getOrCreateConversation (fanOutCap : ℕ) (sender : SessionIdentity)
    (cmd : SendMessageCommand) : Query ConversationId :=
  if cmd.kind = .group ∧ cmd.members.length > fanOutCap then throwStore .tooManyRecipients
  else guarded do
    finishPending
    beginTx
    let tx ← getTx
    setTx { tx with
      expectedDeliveries := if cmd.kind = .direct then 1 else cmd.members.length
      insertedDeliveries := 0 }
    match cmd.kind with
    | .direct =>
      let pair := InMemoryMessageStore.userPair sender cmd
      let id ← directConversation (toColumn pair.first) (toColumn pair.second)
      pure ⟨id⟩
    | .group =>
      let id ← groupConversation (toColumn cmd.groupId.value)
      pure ⟨id⟩

/-- Look up a message with the snapshot of its command.  The time at which it was accepted is
not read. -/
def loadMessage (inTransaction : Bool) (cond : MessageWhere) : Query (Option Message) := do
  let found : Option (ℕ × ChatMessageRow × Json) ← sql (.selectMessage inTransaction cond)
  match found with
  | none => pure none
  | some (id, row, payload) =>
    match decodeCommandSnapshot payload row.content row.clientMessageId with
    | .ok cmd =>
      pure (some
        { id := ⟨id⟩
          conversationId := ⟨row.conversationId⟩
          senderId := ⟨ofColumn row.senderId⟩
          sequence := ⟨row.sequence⟩
          command := cmd })
    | .error e => throwStore e

/-- The key of a message was used before: answer the message that was accepted under it, if
the payload is the same.  This is read in a new transaction. -/
def recoverMessage (draft : Message) : Query Message := do
  rollbackTx
  beginTx
  fire .recoverMessage
  match ← loadMessage true (.key (toColumn draft.senderId.value) draft.command.clientMessageId) with
  | none => throwStore .storage
  | some original =>
    if samePayload original.command draft.command then pure original
    else throwStore .idempotencyConflict

/-- Write a message and its event, under the next sequence of its conversation. -/
def insertMessage (draft : Message) : Query Message := guarded do
  beginTx
  fire .lockConversation
  let last : Option ℕ ← sql (.lockConversation draft.conversationId.value)
  match last with
  | none => throwStore .storage
  | some last =>
    fire .advanceSequence
    sql (.updateConversation draft.conversationId.value (last + 1))
    fire .insertMessage
    let inserted : Option ℕ ← sql (.insertChatMessage
      { conversationId := draft.conversationId.value
        senderId := toColumn draft.senderId.value
        clientMessageId := draft.command.clientMessageId
        sequence := last + 1
        content := draft.command.content })
    match inserted with
    | none => recoverMessage draft
    | some id =>
      fire .insertOutboxEvent
      sql (.insertOutboxEvent id (encodeCommandSnapshot draft.command))
      let tx ← getTx
      Prog.when (tx.expectedDeliveries = 0) commitTx
      pure { draft with id := ⟨id⟩, sequence := ⟨last + 1⟩ }

/-- Write a delivery row, unless it is there.  The last one that is expected commits. -/
def insertDelivery (delivery : Delivery) : Query Unit := guarded do
  beginTx
  fire .insertDelivery
  let _ : Bool ← sql (.insertMessageDelivery (rowKey delivery) (secondsDown delivery.expiresAtMs))
  let tx ← getTx
  setTx { tx with insertedDeliveries := tx.insertedDeliveries + 1 }
  Prog.when (tx.insertedDeliveries + 1 = tx.expectedDeliveries) commitTx

/-! ### The other calls -/

def findAccepted (clientMessageId : ClientMessageId) (sender : UserId) :
    Query (Option Message) := do
  lease
  loadMessage false (.key (toColumn sender.value) clientMessageId)

def findMessage (messageId : MessageId) : Query (Option Message) := do
  lease
  loadMessage false (.id messageId.value)

/-- Write all columns of a delivery row, whatever they have become since they were read. -/
def updateDelivery (delivery : Delivery) : Query Unit := do
  lease
  sql (.updateMessageDelivery (rowKey delivery) (rowOf delivery))

/-- Read the deliveries that meet a condition. -/
def deliveriesWhere (cond : DeliveryWhere) : Query (List Delivery) := do
  lease
  let rows : List SelectedDelivery ← sql (.selectDeliveries cond)
  match decodeRows [] rows with
  | .ok deliveries => pure deliveries
  | .error e => throwStore e

def deliveriesByRecipient (recipient : UserId) : Query (List Delivery) :=
  deliveriesWhere (.recipient (toColumn recipient.value))

def deliveriesByMessage (messageId : MessageId) : Query (List Delivery) :=
  deliveriesWhere (.message messageId.value)

def deliveriesDueForRetry (nowMs : ℤ) (limit : ℕ) : Query (List Delivery) :=
  deliveriesWhere (.due (nowMs.tdiv 1000) limit)

/-- Let rows expire, and say how many. -/
def expireDeliveries (nowMs : ℤ) (limit : ℕ) : Query ℕ := do
  lease
  sql (.expire (nowMs.tdiv 1000) limit)

/-- Read what is going to expire, and then let it expire. -/
def expireDeliveriesDetailed (nowMs : ℤ) (limit : ℕ) : Query (List ExpiredDeliveryRecord) := do
  lease
  let due : List (RowKey × DeliveryRow) ← sql (.selectExpiring (nowMs.tdiv 1000) limit)
  let _ : ℕ ← sql (.expire (nowMs.tdiv 1000) limit)
  pure (due.map fun e => ⟨e.1.first, ofColumn e.1.second, e.2.state⟩)

/-- Remove acknowledged and expired rows, at most `limit` of each kind. -/
def cleanupDeliveries (ackedBeforeMs expiredBeforeMs : ℤ) (limit : ℕ) : Query ℕ := do
  lease
  let acked : ℕ ← sql (.deleteAcknowledged ((ackedBeforeMs + 999).tdiv 1000) limit)
  let expired : ℕ ← sql (.deleteExpired ((expiredBeforeMs + 999).tdiv 1000) limit)
  pure (acked + expired)

def timeGranularityMs : Query ℕ := pure 1000

/-- The programs of the calls of the store. -/
def perform (fanOutCap : ℕ) : (c : StoreCall) → Query c.Value
  | .findAccepted clientMessageId sender => findAccepted clientMessageId sender
  | .getOrCreateConversation sender cmd => getOrCreateConversation fanOutCap sender cmd
  | .insertMessage draft => insertMessage draft
  | .insertDelivery delivery => insertDelivery delivery
  | .updateDelivery delivery => updateDelivery delivery
  | .deliveriesByRecipient recipient => deliveriesByRecipient recipient
  | .deliveriesByMessage messageId => deliveriesByMessage messageId
  | .findMessage messageId => findMessage messageId
  | .deliveriesDueForRetry nowMs limit => deliveriesDueForRetry nowMs limit
  | .expireDeliveriesDetailed nowMs limit => expireDeliveriesDetailed nowMs limit
  | .cleanupDeliveries ackedBeforeMs expiredBeforeMs limit =>
    cleanupDeliveries ackedBeforeMs expiredBeforeMs limit
  | .timeGranularityMs => timeGranularityMs

end MySQLMessageStore

end MuduoChat
