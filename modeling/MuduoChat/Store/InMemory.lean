import MuduoChat.Domain.Json

/-!
# The message store and its in-memory adapter

The part of the store interface that holds the ledger of messages and deliveries, and the
adapter that keeps it in ordered maps.  The interface is a type of calls (`StoreCall`), so
that the code above it can be run against this adapter or another one.
-/

namespace MuduoChat

open Std OrderedMap

/-- A delivery that a retention scan has expired, with the state it had before. -/
structure ExpiredDeliveryRecord where
  messageId : ℕ
  recipient : ℕ
  fromState : DeliveryState
  deriving DecidableEq, Repr

inductive StoreCall where
  | findAccepted (clientMessageId : ClientMessageId) (sender : UserId)
  | getOrCreateConversation (sender : SessionIdentity) (cmd : SendMessageCommand)
  | insertMessage (draft : Message)
  | insertDelivery (delivery : Delivery)
  | updateDelivery (delivery : Delivery)
  | deliveriesByRecipient (recipient : UserId)
  | deliveriesByMessage (messageId : MessageId)
  | findMessage (messageId : MessageId)
  | deliveriesDueForRetry (nowMs : ℤ) (limit : ℕ)
  | expireDeliveriesDetailed (nowMs : ℤ) (limit : ℕ)
  | cleanupDeliveries (ackedBeforeMs expiredBeforeMs : ℤ) (limit : ℕ)
  | timeGranularityMs

/-- What the calls of the ledger answer. -/
def StoreCall.Value : StoreCall → Type
  | .findAccepted .. => Option Message
  | .getOrCreateConversation .. => ConversationId
  | .insertMessage .. => Message
  | .insertDelivery .. => Unit
  | .updateDelivery .. => Unit
  | .deliveriesByRecipient .. => List Delivery
  | .deliveriesByMessage .. => List Delivery
  | .findMessage .. => Option Message
  | .deliveriesDueForRetry .. => List Delivery
  | .expireDeliveriesDetailed .. => List ExpiredDeliveryRecord
  | .cleanupDeliveries .. => ℕ
  | .timeGranularityMs => ℕ

@[ext] structure DeliveryKey where
  messageId : ℕ
  recipient : ℕ
  deriving DecidableEq, Repr

instance : Ord DeliveryKey :=
  ⟨compareLex (compareOn DeliveryKey.messageId) (compareOn DeliveryKey.recipient)⟩

instance : TransOrd DeliveryKey :=
  inferInstanceAs (TransCmp
    (compareLex (compareOn DeliveryKey.messageId) (compareOn DeliveryKey.recipient)))

instance : LawfulEqOrd DeliveryKey :=
  lawfulEqCmp_compareLex fun _ _ hm hr => DeliveryKey.ext hm hr

/-- The key under which a delivery is stored. -/
def Delivery.key (d : Delivery) : DeliveryKey := ⟨d.messageId.value, d.recipient.value⟩

/-- The state of the in-memory adapter. -/
structure InMemoryMessageStore where
  acceptedByKey : TreeMap (LexPair ℕ String) Message := ∅
  messagesById : TreeMap ℕ Message := ∅
  directConversations : TreeMap (LexPair ℕ ℕ) ℕ := ∅
  groupConversations : TreeMap ℕ ℕ := ∅
  nextSequenceByConversation : TreeMap ℕ ℕ := ∅
  deliveries : TreeMap DeliveryKey Delivery := ∅
  outboxEvents : TreeMap ℕ OutboxEvent := ∅
  deadLetters : List DeadLetterRecord := []
  nextConversationId : ℕ := 1
  nextMessageId : ℕ := 1
  nextOutboxEventId : ℕ := 1

namespace InMemoryMessageStore

/-! ### The calls -/

/-- The message that was accepted from a sender under a key. -/
def findAccepted (s : InMemoryMessageStore) (clientMessageId : ClientMessageId)
    (sender : UserId) : Option Message :=
  s.acceptedByKey[(⟨sender.value, clientMessageId.value⟩ : LexPair ℕ String)]?

/-- The unordered pair of users of a direct command. -/
def userPair (sender : SessionIdentity) (cmd : SendMessageCommand) : LexPair ℕ ℕ :=
  ⟨min sender.userId.value cmd.directRecipient.value,
    max sender.userId.value cmd.directRecipient.value⟩

/-- The conversation of a command, if there is one: that of the unordered pair of users, or
that of the group. -/
def findConversation (s : InMemoryMessageStore) (sender : SessionIdentity)
    (cmd : SendMessageCommand) : Option ℕ :=
  match cmd.kind with
  | .direct => s.directConversations[userPair sender cmd]?
  | .group => s.groupConversations[cmd.groupId.value]?

def addConversation (s : InMemoryMessageStore) (sender : SessionIdentity)
    (cmd : SendMessageCommand) : InMemoryMessageStore :=
  { s with
    nextConversationId := s.nextConversationId + 1
    directConversations :=
      match cmd.kind with
      | .direct => s.directConversations.insert (userPair sender cmd) s.nextConversationId
      | .group => s.directConversations
    groupConversations :=
      match cmd.kind with
      | .direct => s.groupConversations
      | .group => s.groupConversations.insert cmd.groupId.value s.nextConversationId }

/-- The conversation of a command.  A new one is made if there is none yet. -/
def getOrCreateConversation (s : InMemoryMessageStore) (sender : SessionIdentity)
    (cmd : SendMessageCommand) : ConversationId × InMemoryMessageStore :=
  match s.findConversation sender cmd with
  | some id => (⟨id⟩, s)
  | none => (⟨s.nextConversationId⟩, s.addConversation sender cmd)

/-- The last sequence number given in a conversation. -/
def lastSequence (s : InMemoryMessageStore) (conversation : ConversationId) : ℕ :=
  s.nextSequenceByConversation[conversation.value]?.getD 0

/-- The message that `insertMessage` makes of a draft. -/
def accepted (s : InMemoryMessageStore) (draft : Message) : Message :=
  { draft with
    id := ⟨s.nextMessageId⟩
    sequence := ⟨s.lastSequence draft.conversationId + 1⟩ }

/-- The event that `insertMessage` writes together with a message. -/
def acceptedEvent (s : InMemoryMessageStore) (m : Message) : OutboxEvent :=
  { id := s.nextOutboxEventId
    aggregateMessageId := m.id
    eventType := "MessageAccepted"
    payload := encodeOutboxPayload m.command
    availableAtMs := m.acceptedAtMs }

/-- Write a message: give it its identifier and the next sequence number of its
conversation, and write its outbox event. -/
def insertMessage (s : InMemoryMessageStore) (draft : Message) :
    Message × InMemoryMessageStore :=
  let m := s.accepted draft
  (m, { s with
    nextMessageId := s.nextMessageId + 1
    nextSequenceByConversation :=
      s.nextSequenceByConversation.insert m.conversationId.value m.sequence.value
    messagesById := s.messagesById.insertIfNew m.id.value m
    acceptedByKey :=
      s.acceptedByKey.insertIfNew ⟨m.senderId.value, m.command.clientMessageId.value⟩ m
    nextOutboxEventId := s.nextOutboxEventId + 1
    outboxEvents := s.outboxEvents.insertIfNew s.nextOutboxEventId (s.acceptedEvent m) })

/-- Write a new delivery row.  A row that exists is left alone. -/
def insertDelivery (s : InMemoryMessageStore) (delivery : Delivery) : InMemoryMessageStore :=
  { s with deliveries := s.deliveries.insertIfNew delivery.key delivery }

/-- Overwrite a delivery row, if there is one. -/
def updateDelivery (s : InMemoryMessageStore) (delivery : Delivery) : InMemoryMessageStore :=
  { s with
    deliveries :=
      match s.deliveries[delivery.key]? with
      | some _ => s.deliveries.insert delivery.key delivery
      | none => s.deliveries }

/-- A row as the store returns it, with the sequence of its message. -/
def fillSequence (s : InMemoryMessageStore) (d : Delivery) : Delivery :=
  match s.messagesById[d.messageId.value]? with
  | some m => { d with sequence := m.sequence }
  | none => d

/-- The rows of a recipient, in the order of their keys. -/
def deliveriesByRecipient (s : InMemoryMessageStore) (recipient : UserId) : List Delivery :=
  ((s.deliveries.toList.map Prod.snd).filter fun d =>
    d.recipient.value = recipient.value).map s.fillSequence

/-- The rows of a message, in the order of their keys. -/
def deliveriesByMessage (s : InMemoryMessageStore) (messageId : MessageId) : List Delivery :=
  ((s.deliveries.toList.map Prod.snd).filter fun d =>
    d.messageId.value = messageId.value).map s.fillSequence

def findMessage (s : InMemoryMessageStore) (messageId : MessageId) : Option Message :=
  s.messagesById[messageId.value]?

/-- The row is in flight and its next attempt is due. -/
def dueForRetry (nowMs : ℤ) (d : Delivery) : Bool :=
  d.state = .inFlight && decide (d.nextAttemptAtMs > 0) && decide (d.nextAttemptAtMs ≤ nowMs)

/-- The rows that are due for another attempt.  Here the sequence is not filled in. -/
def deliveriesDueForRetry (s : InMemoryMessageStore) (nowMs : ℤ) (limit : ℕ) : List Delivery :=
  (select s.deliveries (dueForRetry nowMs) limit).map Prod.snd

/-- The row is not terminal and its retention has passed. -/
def dueForExpiry (nowMs : ℤ) (d : Delivery) : Bool :=
  !d.state.terminal && decide (d.expiresAtMs > 0) && decide (nowMs > d.expiresAtMs)

/-- Expire the rows whose retention has passed, at most `limit` of them. -/
def expireDeliveriesDetailed (s : InMemoryMessageStore) (nowMs : ℤ) (limit : ℕ) :
    List ExpiredDeliveryRecord × InMemoryMessageStore :=
  let due := select s.deliveries (dueForExpiry nowMs) limit
  (due.map fun e => ⟨e.2.messageId.value, e.2.recipient.value, e.2.state⟩,
    { s with
      deliveries := rewriteAll (fun d => { d with state := .expired }) s.deliveries due })

/-- The same without the details. -/
def expireDeliveries (s : InMemoryMessageStore) (nowMs : ℤ) (limit : ℕ) :
    ℕ × InMemoryMessageStore :=
  let due := select s.deliveries (dueForExpiry nowMs) limit
  (due.length,
    { s with
      deliveries := rewriteAll (fun d => { d with state := .expired }) s.deliveries due })

/-- The row was acknowledged long enough ago to be removed. -/
def dueAcked (ackedBeforeMs : ℤ) (d : Delivery) : Bool :=
  d.state = .acknowledged && decide (d.acknowledgedAtMs > 0) &&
    decide (d.acknowledgedAtMs ≤ ackedBeforeMs)

/-- The row expired long enough ago to be removed. -/
def dueExpired (expiredBeforeMs : ℤ) (d : Delivery) : Bool :=
  d.state = .expired && decide (d.expiresAtMs > 0) && decide (d.expiresAtMs ≤ expiredBeforeMs)

/-- Remove acknowledged and expired rows, at most `limit` of each kind. -/
def cleanupDeliveries (s : InMemoryMessageStore) (ackedBeforeMs expiredBeforeMs : ℤ)
    (limit : ℕ) : ℕ × InMemoryMessageStore :=
  let acked := (select s.deliveries (dueAcked ackedBeforeMs) limit).map Prod.fst
  let expired := (select s.deliveries (dueExpired expiredBeforeMs) limit).map Prod.fst
  (acked.length + expired.length,
    { s with deliveries := eraseAll (eraseAll s.deliveries acked) expired })

/-- The adapter answers every call, and never with an error. -/
def answer (s : InMemoryMessageStore) : (c : StoreCall) → c.Value × InMemoryMessageStore
  | .findAccepted clientMessageId sender => (s.findAccepted clientMessageId sender, s)
  | .getOrCreateConversation sender cmd => s.getOrCreateConversation sender cmd
  | .insertMessage draft => s.insertMessage draft
  | .insertDelivery delivery => ((), s.insertDelivery delivery)
  | .updateDelivery delivery => ((), s.updateDelivery delivery)
  | .deliveriesByRecipient recipient => (s.deliveriesByRecipient recipient, s)
  | .deliveriesByMessage messageId => (s.deliveriesByMessage messageId, s)
  | .findMessage messageId => (s.findMessage messageId, s)
  | .deliveriesDueForRetry nowMs limit => (s.deliveriesDueForRetry nowMs limit, s)
  | .expireDeliveriesDetailed nowMs limit => s.expireDeliveriesDetailed nowMs limit
  | .cleanupDeliveries ackedBeforeMs expiredBeforeMs limit =>
    s.cleanupDeliveries ackedBeforeMs expiredBeforeMs limit
  | .timeGranularityMs => ((1 : ℕ), s)

/-! ### What the calls do to a row -/

/-- The row under a key. -/
def row (s : InMemoryMessageStore) (k : DeliveryKey) : Option Delivery := s.deliveries[k]?

variable {s : InMemoryMessageStore} {d : Delivery} {k : DeliveryKey} {u : UserId}

lemma row_insertDelivery (s : InMemoryMessageStore) (d : Delivery) (k : DeliveryKey) :
    (s.insertDelivery d).row k =
      if d.key = k ∧ s.row d.key = none then some d else s.row k :=
  getElem?_insertIfNew _ _ _ _

lemma row_updateDelivery (s : InMemoryMessageStore) (d : Delivery) (k : DeliveryKey) :
    (s.updateDelivery d).row k =
      if d.key = k ∧ (s.row d.key).isSome then some d else s.row k := by
  unfold row updateDelivery
  cases h : s.deliveries[d.key]? with
  | none => simp
  | some cur => simp [getElem?_insert]

lemma row_expireDeliveriesDetailed (s : InMemoryMessageStore) (nowMs : ℤ) (limit : ℕ)
    (k : DeliveryKey) :
    (s.expireDeliveriesDetailed nowMs limit).2.row k = s.row k ∨
      ∃ d, s.row k = some d ∧ d.state.terminal = false ∧ d.expiresAtMs < nowMs ∧
        (s.expireDeliveriesDetailed nowMs limit).2.row k =
          some { d with state := .expired } := by
  rcases getElem?_rewriteAll_select (fun d => { d with state := DeliveryState.expired })
    s.deliveries (dueForExpiry nowMs) limit k with h | ⟨d, hd, hdue, h⟩
  · exact .inl h
  · simp only [dueForExpiry, Bool.and_eq_true, Bool.not_eq_true', decide_eq_true_eq] at hdue
    exact .inr ⟨d, hd, hdue.1.1, hdue.2, h⟩

lemma row_cleanupDeliveries (s : InMemoryMessageStore) (ackedBeforeMs expiredBeforeMs : ℤ)
    (limit : ℕ) (k : DeliveryKey) :
    (s.cleanupDeliveries ackedBeforeMs expiredBeforeMs limit).2.row k = s.row k ∨
      ∃ d, s.row k = some d ∧
        (d.state = .acknowledged ∧ d.acknowledgedAtMs ≤ ackedBeforeMs ∨
          d.state = .expired ∧ d.expiresAtMs ≤ expiredBeforeMs) ∧
        (s.cleanupDeliveries ackedBeforeMs expiredBeforeMs limit).2.row k = none := by
  have hacked := getElem?_eraseAll_select s.deliveries (dueAcked ackedBeforeMs) limit k
  have hall : (s.cleanupDeliveries ackedBeforeMs expiredBeforeMs limit).2.row k =
      if k ∈ (select s.deliveries (dueExpired expiredBeforeMs) limit).map Prod.fst then none
      else (eraseAll s.deliveries
        ((select s.deliveries (dueAcked ackedBeforeMs) limit).map Prod.fst))[k]? :=
    getElem?_eraseAll _ _ _
  rw [hall]
  by_cases hk : k ∈ (select s.deliveries (dueExpired expiredBeforeMs) limit).map Prod.fst
  · obtain ⟨⟨k, d⟩, hmem, rfl⟩ := List.mem_map.1 hk
    obtain ⟨hd, hdue⟩ := mem_select hmem
    simp only [dueExpired, Bool.and_eq_true, decide_eq_true_eq] at hdue
    exact .inr ⟨d, hd, .inr ⟨hdue.1.1, hdue.2⟩, by simp only [hk, if_true]⟩
  · simp only [hk, if_false]
    rcases hacked with h | ⟨d, hd, hdue, h⟩
    · exact .inl h
    · simp only [dueAcked, Bool.and_eq_true, decide_eq_true_eq] at hdue
      exact .inr ⟨d, hd, .inl ⟨hdue.1.1, hdue.2⟩, h⟩

/-- Two stores differ in the contents of delivery rows only. -/
structure OnlyRows (s s' : InMemoryMessageStore) : Prop where
  rest : s' = { s with deliveries := s'.deliveries }
  present : ∀ k, (s'.row k).isSome = (s.row k).isSome

lemma OnlyRows.refl (s : InMemoryMessageStore) : OnlyRows s s := ⟨rfl, fun _ => rfl⟩

lemma OnlyRows.trans {s1 s2 s3 : InMemoryMessageStore} (h : OnlyRows s1 s2) (h' : OnlyRows s2 s3) :
    OnlyRows s1 s3 := by
  refine ⟨?_, fun k => (h'.present k).trans (h.present k)⟩
  rw [h'.rest, h.rest]

lemma onlyRows_updateDelivery (s : InMemoryMessageStore) (d : Delivery) :
    OnlyRows s (s.updateDelivery d) := by
  refine ⟨rfl, fun k => ?_⟩
  rw [row_updateDelivery]
  split
  · rename_i h
    rw [← h.1]
    exact h.2.symm
  · rfl

/-! ### What the queries return -/

@[simp] lemma fillSequence_key (s : InMemoryMessageStore) (d : Delivery) :
    (s.fillSequence d).key = d.key := by
  unfold fillSequence
  split <;> rfl

lemma fillSequence_eq (s : InMemoryMessageStore) (d : Delivery) :
    s.fillSequence d = { d with sequence := (s.fillSequence d).sequence } := by
  unfold fillSequence
  split <;> rfl

lemma mem_deliveriesByRecipient {r : Delivery} :
    r ∈ s.deliveriesByRecipient u ↔
      ∃ k d, s.row k = some d ∧ d.recipient = u ∧ r = s.fillSequence d := by
  simp only [deliveriesByRecipient, List.mem_map, List.mem_filter, decide_eq_true_eq,
    Prod.exists, Id.ext_iff]
  constructor
  · rintro ⟨d, ⟨⟨k, _, hmem, rfl⟩, hu⟩, rfl⟩
    exact ⟨k, _, mem_toList.1 hmem, hu, rfl⟩
  · rintro ⟨k, d, hd, hu, rfl⟩
    exact ⟨d, ⟨⟨k, d, mem_toList.2 hd, rfl⟩, hu⟩, rfl⟩

lemma recipient_of_mem (hd : d ∈ s.deliveriesByRecipient u) : d.recipient = u := by
  obtain ⟨k, cur, -, hu, rfl⟩ := mem_deliveriesByRecipient.1 hd
  rw [s.fillSequence_eq cur]
  exact hu

lemma mem_deliveriesByMessage {r : Delivery} {m : MessageId} :
    r ∈ s.deliveriesByMessage m ↔
      ∃ k d, s.row k = some d ∧ d.messageId = m ∧ r = s.fillSequence d := by
  simp only [deliveriesByMessage, List.mem_map, List.mem_filter, decide_eq_true_eq,
    Prod.exists, Id.ext_iff]
  constructor
  · rintro ⟨d, ⟨⟨k, _, hmem, rfl⟩, hm⟩, rfl⟩
    exact ⟨k, _, mem_toList.1 hmem, hm, rfl⟩
  · rintro ⟨k, d, hd, hm, rfl⟩
    exact ⟨d, ⟨⟨k, d, mem_toList.2 hd, rfl⟩, hm⟩, rfl⟩

lemma mem_deliveriesDueForRetry {nowMs : ℤ} {limit : ℕ}
    (h : d ∈ s.deliveriesDueForRetry nowMs limit) :
    ∃ k, s.row k = some d ∧ d.state = .inFlight ∧ d.nextAttemptAtMs ≤ nowMs := by
  obtain ⟨⟨k, d⟩, hmem, rfl⟩ := List.mem_map.1 h
  obtain ⟨hd, hdue⟩ := mem_select hmem
  simp only [dueForRetry, Bool.and_eq_true, decide_eq_true_eq] at hdue
  exact ⟨k, hd, hdue.1.1, hdue.2⟩

end InMemoryMessageStore

end MuduoChat
