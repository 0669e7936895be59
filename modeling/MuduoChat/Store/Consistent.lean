import MuduoChat.Store.InMemory

/-!
# Consistency of the ledger

What holds between the tables of the store: of messages, keys, sequences and outbox events
(`Messages`), and of the delivery rows and the messages they belong to (`Rows`).  The second
part contains the head-of-line order: a row in flight stands first among the rows of its
recipient and conversation that are not terminal.
-/

namespace MuduoChat

open Std OrderedMap

/-- The key under which a message was accepted. -/
def Message.key (m : Message) : LexPair ℕ String :=
  ⟨m.senderId.value, m.command.clientMessageId.value⟩

namespace InMemoryMessageStore

def sequenceOf (s : InMemoryMessageStore) (d : Delivery) : ℕ := (s.fillSequence d).sequence.value

def acceptedUnder (s : InMemoryMessageStore) (key : LexPair ℕ String) : Option Message :=
  s.acceptedByKey[key]?

/-- The outbox event with an id. -/
def outboxEvent (s : InMemoryMessageStore) (n : ℕ) : Option OutboxEvent := s.outboxEvents[n]?

/-! ### Messages -/

/-- Consistency of the messages with the keys, the sequences and the outbox. -/
structure Messages (s : InMemoryMessageStore) : Prop where
  next_pos : 0 < s.nextMessageId
  id_eq : ∀ {i m}, s.findMessage i = some m → m.id = i
  id_pos : ∀ {i m}, s.findMessage i = some m → 0 < i.value
  id_lt : ∀ {i m}, s.findMessage i = some m → i.value < s.nextMessageId
  accepted_iff : ∀ {key m},
    s.acceptedUnder key = some m ↔ m.key = key ∧ s.findMessage m.id = some m
  sequence_pos : ∀ {i m}, s.findMessage i = some m → 0 < m.sequence.value
  sequence_le : ∀ {i m}, s.findMessage i = some m →
    m.sequence.value ≤ s.lastSequence m.conversationId
  sequence_lt_iff : ∀ {i j m m'}, s.findMessage i = some m → s.findMessage j = some m' →
    m.conversationId = m'.conversationId →
    (m.sequence.value < m'.sequence.value ↔ i.value < j.value)
  sequence_full : ∀ c q, 0 < q → q ≤ s.lastSequence c →
    ∃ i m, s.findMessage i = some m ∧ m.conversationId = c ∧ m.sequence.value = q
  outbox_next : s.nextOutboxEventId = s.nextMessageId
  outbox_event : ∀ {n e}, s.outboxEvent n = some e → e.id = n ∧ e.aggregateMessageId = ⟨n⟩ ∧
    (s.findMessage ⟨n⟩).isSome
  outbox_of_message : ∀ {i m}, s.findMessage i = some m → (s.outboxEvent i.value).isSome

/-- Two stores agree in everything that the consistency of messages is about. -/
structure SameMessages (s s' : InMemoryMessageStore) : Prop where
  messagesById : s'.messagesById = s.messagesById
  acceptedByKey : s'.acceptedByKey = s.acceptedByKey
  nextSequenceByConversation : s'.nextSequenceByConversation = s.nextSequenceByConversation
  outboxEvents : s'.outboxEvents = s.outboxEvents
  nextMessageId : s'.nextMessageId = s.nextMessageId
  nextOutboxEventId : s'.nextOutboxEventId = s.nextOutboxEventId

variable {s s' : InMemoryMessageStore}

lemma SameMessages.refl (s : InMemoryMessageStore) : SameMessages s s := by
  constructor <;> rfl

lemma SameMessages.trans {s1 s2 s3 : InMemoryMessageStore} (h : SameMessages s1 s2)
    (h' : SameMessages s2 s3) : SameMessages s1 s3 := by
  constructor
  · rw [h'.messagesById, h.messagesById]
  · rw [h'.acceptedByKey, h.acceptedByKey]
  · rw [h'.nextSequenceByConversation, h.nextSequenceByConversation]
  · rw [h'.outboxEvents, h.outboxEvents]
  · rw [h'.nextMessageId, h.nextMessageId]
  · rw [h'.nextOutboxEventId, h.nextOutboxEventId]

lemma SameMessages.findMessage (h : SameMessages s s') (i : MessageId) :
    s'.findMessage i = s.findMessage i := by
  unfold InMemoryMessageStore.findMessage
  rw [h.messagesById]

lemma SameMessages.acceptedUnder (h : SameMessages s s') (key : LexPair ℕ String) :
    s'.acceptedUnder key = s.acceptedUnder key := by
  unfold InMemoryMessageStore.acceptedUnder
  rw [h.acceptedByKey]

lemma SameMessages.lastSequence (h : SameMessages s s') (c : ConversationId) :
    s'.lastSequence c = s.lastSequence c := by
  unfold InMemoryMessageStore.lastSequence
  rw [h.nextSequenceByConversation]

lemma SameMessages.outboxEvent (h : SameMessages s s') (n : ℕ) :
    s'.outboxEvent n = s.outboxEvent n := by
  unfold InMemoryMessageStore.outboxEvent
  rw [h.outboxEvents]

lemma SameMessages.sequenceOf (h : SameMessages s s') (d : Delivery) :
    s'.sequenceOf d = s.sequenceOf d := by
  unfold InMemoryMessageStore.sequenceOf fillSequence
  rw [h.messagesById]

lemma Messages.congr (hs : Messages s) (h : SameMessages s s') : Messages s' := by
  constructor <;>
    simp only [h.findMessage, h.acceptedUnder, h.lastSequence, h.outboxEvent, h.nextMessageId,
      h.nextOutboxEventId]
  exacts [hs.next_pos, hs.id_eq, hs.id_pos, hs.id_lt, hs.accepted_iff, hs.sequence_pos,
    hs.sequence_le, hs.sequence_lt_iff, hs.sequence_full, hs.outbox_next, hs.outbox_event,
    hs.outbox_of_message]

lemma sameMessages_getOrCreateConversation (s : InMemoryMessageStore) (sender : SessionIdentity)
    (cmd : SendMessageCommand) : SameMessages s (s.getOrCreateConversation sender cmd).2 := by
  unfold getOrCreateConversation
  split <;> constructor <;> rfl

lemma deliveries_getOrCreateConversation (s : InMemoryMessageStore) (sender : SessionIdentity)
    (cmd : SendMessageCommand) :
    (s.getOrCreateConversation sender cmd).2.deliveries = s.deliveries := by
  unfold getOrCreateConversation
  split <;> rfl

/-! ### A new message -/

section insertMessage

variable {draft : Message}

lemma findMessage_insertMessage (hs : Messages s) (i : MessageId) :
    (s.insertMessage draft).2.findMessage i =
      if i = (s.accepted draft).id then some (s.accepted draft) else s.findMessage i := by
  have hfresh : s.messagesById[s.nextMessageId]? = none := by
    by_contra hne
    obtain ⟨m, hm⟩ := Option.ne_none_iff_exists'.1 hne
    exact absurd (hs.id_lt (i := ⟨s.nextMessageId⟩) hm) (by simp)
  have hlook : (s.insertMessage draft).2.findMessage i =
      if s.nextMessageId = i.value ∧ s.messagesById[s.nextMessageId]? = none then
        some (s.accepted draft) else s.messagesById[i.value]? :=
    getElem?_insertIfNew _ _ _ _
  have hid : i = (s.accepted draft).id ↔ s.nextMessageId = i.value := by
    simp [accepted, Id.ext_iff, eq_comm]
  rw [hlook]
  simp only [hfresh, and_true, hid, findMessage]

lemma acceptedUnder_insertMessage (hnew : s.acceptedUnder draft.key = none)
    (key : LexPair ℕ String) :
    (s.insertMessage draft).2.acceptedUnder key =
      if draft.key = key then some (s.accepted draft) else s.acceptedUnder key := by
  have hlook : (s.insertMessage draft).2.acceptedUnder key =
      if draft.key = key ∧ s.acceptedUnder draft.key = none then
        some (s.accepted draft) else s.acceptedUnder key :=
    getElem?_insertIfNew _ _ _ _
  simp only [hlook, hnew, and_true]

lemma lastSequence_insertMessage (c : ConversationId) :
    (s.insertMessage draft).2.lastSequence c =
      if draft.conversationId = c then s.lastSequence draft.conversationId + 1
      else s.lastSequence c := by
  simp only [lastSequence, insertMessage, accepted, getElem?_insert, Id.ext_iff]
  split <;> rfl

lemma outboxEvent_insertMessage (hs : Messages s) (n : ℕ) :
    (s.insertMessage draft).2.outboxEvent n =
      if n = s.nextMessageId then some (s.acceptedEvent (s.accepted draft))
      else s.outboxEvent n := by
  have hfresh : s.outboxEvent s.nextOutboxEventId = none := by
    by_contra hne
    obtain ⟨e, he⟩ := Option.ne_none_iff_exists'.1 hne
    obtain ⟨m, hm⟩ := Option.isSome_iff_exists.1 (hs.outbox_event he).2.2
    exact absurd (hs.id_lt hm) (by simp [hs.outbox_next])
  have hlook : (s.insertMessage draft).2.outboxEvent n =
      if s.nextOutboxEventId = n ∧ s.outboxEvent s.nextOutboxEventId = none then
        some (s.acceptedEvent (s.accepted draft)) else s.outboxEvent n :=
    getElem?_insertIfNew _ _ _ _
  rw [hlook, hfresh, hs.outbox_next]
  simp only [and_true, eq_comm]

variable {i : MessageId} {m : Message}

lemma Messages.id_ne_accepted (hs : Messages s)
    (h : s.findMessage i = some m) : i ≠ (s.accepted draft).id := by
  rintro rfl
  exact absurd (hs.id_lt h) (by simp [accepted])

lemma findMessage_insertMessage_of_some (hs : Messages s)
    (h : s.findMessage i = some m) : (s.insertMessage draft).2.findMessage i = some m := by
  rw [findMessage_insertMessage hs, if_neg (hs.id_ne_accepted h), h]

lemma findMessage_insertMessage_cases (hs : Messages s)
    (h : (s.insertMessage draft).2.findMessage i = some m) :
    (i = (s.accepted draft).id ∧ m = s.accepted draft) ∨ s.findMessage i = some m := by
  rw [findMessage_insertMessage hs] at h
  split at h
  · rename_i hi
    exact .inl ⟨hi, (Option.some.inj h).symm⟩
  · exact .inr h

lemma accepted_iff_insertMessage (hs : Messages s) (hnew : s.acceptedUnder draft.key = none)
    {key : LexPair ℕ String} :
    (s.insertMessage draft).2.acceptedUnder key = some m ↔
      m.key = key ∧ (s.insertMessage draft).2.findMessage m.id = some m := by
  rw [acceptedUnder_insertMessage hnew]
  constructor
  · intro h
    split at h
    · rename_i hkey
      cases h
      exact ⟨hkey, by rw [findMessage_insertMessage hs, if_pos rfl]⟩
    · obtain ⟨hkey, hm⟩ := hs.accepted_iff.1 h
      exact ⟨hkey, findMessage_insertMessage_of_some hs hm⟩
  · rintro ⟨hkey, hm⟩
    rcases findMessage_insertMessage_cases hs hm with ⟨-, rfl⟩ | hold
    · exact if_pos hkey
    · have hunder : s.acceptedUnder key = some m := hs.accepted_iff.2 ⟨hkey, hold⟩
      have hne : draft.key ≠ key := by
        rintro rfl
        simp [hnew] at hunder
      rw [if_neg hne, hunder]

lemma Messages.sequence_lt_accepted (hs : Messages s)
    (h : s.findMessage i = some m) (hc : m.conversationId = draft.conversationId) :
    m.sequence.value < (s.accepted draft).sequence.value := by
  have hle := hs.sequence_le h
  rw [hc] at hle
  exact Nat.lt_succ_of_le hle

lemma sequence_lt_iff_insertMessage (hs : Messages s) {j : MessageId} {m' : Message}
    (hm : (s.insertMessage draft).2.findMessage i = some m)
    (hm' : (s.insertMessage draft).2.findMessage j = some m')
    (hc : m.conversationId = m'.conversationId) :
    m.sequence.value < m'.sequence.value ↔ i.value < j.value := by
  have hid : (s.accepted draft).id.value = s.nextMessageId := rfl
  rcases findMessage_insertMessage_cases hs hm with ⟨rfl, rfl⟩ | hold <;>
    rcases findMessage_insertMessage_cases hs hm' with ⟨rfl, rfl⟩ | hold'
  · simp
  · have hlt := hs.id_lt hold'
    have hseq : m'.sequence.value < (s.accepted draft).sequence.value :=
      hs.sequence_lt_accepted hold' hc.symm
    omega
  · have hlt := hs.id_lt hold
    have hseq : m.sequence.value < (s.accepted draft).sequence.value :=
      hs.sequence_lt_accepted hold hc
    omega
  · exact hs.sequence_lt_iff hold hold' hc

lemma sequence_full_insertMessage (hs : Messages s) (c : ConversationId) (q : ℕ) (hq : 0 < q)
    (hle : q ≤ (s.insertMessage draft).2.lastSequence c) :
    ∃ i m, (s.insertMessage draft).2.findMessage i = some m ∧ m.conversationId = c ∧
      m.sequence.value = q := by
  rw [lastSequence_insertMessage] at hle
  by_cases hold : q ≤ s.lastSequence c
  · obtain ⟨i, m, hm, hc, hseq⟩ := hs.sequence_full c q hq hold
    exact ⟨i, m, findMessage_insertMessage_of_some hs hm, hc, hseq⟩
  · -- the only number beyond the old ones is that of the new message
    split at hle
    · rename_i hc
      subst hc
      refine ⟨(s.accepted draft).id, s.accepted draft, ?_, rfl, ?_⟩
      · rw [findMessage_insertMessage hs, if_pos rfl]
      · have hseq : (s.accepted draft).sequence.value = s.lastSequence draft.conversationId + 1 :=
          rfl
        omega
    · exact absurd hle hold

lemma Messages.insertMessage (hs : Messages s) (hnew : s.acceptedUnder draft.key = none) :
    Messages (s.insertMessage draft).2 where
  next_pos := Nat.succ_pos _
  id_eq h := by
    rcases findMessage_insertMessage_cases hs h with ⟨rfl, rfl⟩ | hold
    · rfl
    · exact hs.id_eq hold
  id_pos h := by
    rcases findMessage_insertMessage_cases hs h with ⟨rfl, rfl⟩ | hold
    · exact hs.next_pos
    · exact hs.id_pos hold
  id_lt h := by
    rcases findMessage_insertMessage_cases hs h with ⟨rfl, rfl⟩ | hold
    · exact Nat.lt_succ_self _
    · exact Nat.lt_succ_of_lt (hs.id_lt hold)
  accepted_iff := accepted_iff_insertMessage hs hnew
  sequence_pos h := by
    rcases findMessage_insertMessage_cases hs h with ⟨rfl, rfl⟩ | hold
    · exact Nat.succ_pos _
    · exact hs.sequence_pos hold
  sequence_le {i m} h := by
    rw [lastSequence_insertMessage]
    rcases findMessage_insertMessage_cases hs h with ⟨rfl, rfl⟩ | hold
    · exact (if_pos rfl).ge
    · have hle := hs.sequence_le hold
      split
      · rename_i hc
        rw [hc]
        omega
      · exact hle
  sequence_lt_iff hm hm' hc := sequence_lt_iff_insertMessage hs hm hm' hc
  sequence_full := sequence_full_insertMessage hs
  outbox_next := congrArg (· + 1) hs.outbox_next
  outbox_event {n e} h := by
    rw [outboxEvent_insertMessage hs] at h
    split at h
    · rename_i hn
      cases h
      refine ⟨hs.outbox_next.trans hn.symm, Id.ext hn.symm, ?_⟩
      rw [findMessage_insertMessage hs, if_pos (Id.ext hn)]
      rfl
    · obtain ⟨hid, hagg, hm⟩ := hs.outbox_event h
      obtain ⟨m, hm⟩ := Option.isSome_iff_exists.1 hm
      exact ⟨hid, hagg, by rw [findMessage_insertMessage_of_some hs hm]; rfl⟩
  outbox_of_message {i m} h := by
    rw [outboxEvent_insertMessage hs]
    rcases findMessage_insertMessage_cases hs h with ⟨rfl, rfl⟩ | hold
    · have hid : (s.accepted draft).id.value = s.nextMessageId := rfl
      simp [hid]
    · split
      · rfl
      · exact hs.outbox_of_message hold

end insertMessage

lemma Messages.empty : Messages {} := by
  have hfind : ∀ i : MessageId, findMessage {} i = none := fun i => by simp [findMessage]
  have hunder : ∀ key, acceptedUnder {} key = none := fun key => by simp [acceptedUnder]
  have hlast : ∀ c : ConversationId, lastSequence {} c = 0 := fun c => by simp [lastSequence]
  have hevent : ∀ n, outboxEvent {} n = none := fun n => by simp [outboxEvent]
  constructor <;> simp [hfind, hunder, hlast, hevent]
  omega

/-! ### Rows -/

/-- Every row stands under its own key. -/
def Keyed (s : InMemoryMessageStore) : Prop := ∀ k d, s.row k = some d → d.key = k

/-- Every row that comes before this one, for the same recipient in the same conversation,
is terminal. -/
def HeadRow (s : InMemoryMessageStore) (d : Delivery) : Prop :=
  ∀ k d', s.row k = some d' → d'.recipient = d.recipient →
    d'.conversationId = d.conversationId → s.sequenceOf d' < s.sequenceOf d →
    d'.state.terminal = true

/-- Consistency of the delivery rows. -/
structure Rows (s : InMemoryMessageStore) : Prop where
  key_eq : ∀ {k d}, s.row k = some d → d.key = k
  message : ∀ {k d}, s.row k = some d → ∃ m, s.findMessage d.messageId = some m ∧
    m.conversationId = d.conversationId ∧ d.recipient ∈ recipientsFor m.command
  leased : ∀ {k d}, s.row k = some d → d.state = .inFlight → d.leaseOwner.userId = d.recipient
  head : ∀ {k d}, s.row k = some d → d.state = .inFlight → s.HeadRow d

/-- What a step can do to the row under a key: nothing, make a new row at the end of its
conversation, write the row in a way that respects the order, or remove it. -/
inductive Touch (s : InMemoryMessageStore) (k : DeliveryKey) :
    Option Delivery → Option Delivery → Prop
  | same (x : Option Delivery) : Touch s k x x
  | create {d : Delivery} {m : Message} (hkey : d.key = k) (hm : s.findMessage d.messageId = some m)
      (hconv : m.conversationId = d.conversationId) (hrec : d.recipient ∈ recipientsFor m.command)
      (hlast : m.sequence.value = s.lastSequence m.conversationId) (hstate : d.state = .pending) :
      Touch s k none (some d)
  | write {cur d : Delivery} (hmsg : d.messageId = cur.messageId)
      (hconv : d.conversationId = cur.conversationId) (hrec : d.recipient = cur.recipient)
      (hopen : d.state.terminal = false → cur.state.terminal = false)
      (hclaim : d.state = .inFlight → d.leaseOwner.userId = d.recipient ∧ s.HeadRow cur) :
      Touch s k (some cur) (some d)
  | remove (cur : Delivery) : Touch s k (some cur) none

lemma sequenceOf_eq {d : Delivery} {m : Message} (h : s.findMessage d.messageId = some m) :
    s.sequenceOf d = m.sequence.value := by
  unfold findMessage at h
  simp [sequenceOf, fillSequence, h]

/-- Where a row comes from: it continues a row, or it has just been created. -/
lemma Touch.origin (hrows : Rows s) {k : DeliveryKey} {d : Delivery}
    (h : Touch s k (s.row k) (some d)) :
    (∃ cur, s.row k = some cur ∧ d.messageId = cur.messageId ∧
        d.conversationId = cur.conversationId ∧ d.recipient = cur.recipient ∧
        (d.state.terminal = false → cur.state.terminal = false) ∧
        (d.state = .inFlight → d.leaseOwner.userId = d.recipient ∧ s.HeadRow cur)) ∨
      (∃ m, d.key = k ∧ s.findMessage d.messageId = some m ∧
        m.conversationId = d.conversationId ∧ d.recipient ∈ recipientsFor m.command ∧
        m.sequence.value = s.lastSequence m.conversationId ∧ d.state = .pending) := by
  generalize hx : s.row k = x at h
  cases h with
  | same => exact .inl ⟨d, rfl, rfl, rfl, rfl, id, fun hd => ⟨hrows.leased hx hd, hrows.head hx hd⟩⟩
  | create hkey hm hconv hrec hlast hstate =>
    exact .inr ⟨_, hkey, hm, hconv, hrec, hlast, hstate⟩
  | write hmsg hconv hrec hopen hclaim =>
    exact .inl ⟨_, rfl, hmsg, hconv, hrec, hopen, hclaim⟩

lemma Rows.step (hmsgs : Messages s) (hrows : Rows s) (hsame : SameMessages s s')
    (htouch : ∀ k, Touch s k (s.row k) (s'.row k)) : Rows s' := by
  have origin {k : DeliveryKey} {d : Delivery} (h : s'.row k = some d) :=
    Touch.origin hrows (h ▸ htouch k)
  constructor
  · -- the key of a row is made of its message and its recipient, which do not change
    intro k d h
    rcases origin h with ⟨cur, hcur, hmsg, -, hrec, -⟩ | ⟨m, hkey, -⟩
    · rw [← hrows.key_eq hcur, Delivery.key, Delivery.key, hmsg, hrec]
    · exact hkey
  · intro k d h
    simp only [hsame.findMessage]
    rcases origin h with ⟨cur, hcur, hmsg, hconv, hrec, -⟩ | ⟨m, -, hm, hconv, hrec, -⟩
    · rw [hmsg, hconv, hrec]
      exact hrows.message hcur
    · exact ⟨m, hm, hconv, hrec⟩
  · intro k d h hd
    rcases origin h with ⟨cur, -, -, -, -, -, hclaim⟩ | ⟨m, -, -, -, -, -, hstate⟩
    · exact (hclaim hd).1
    · exact absurd hd (by simp [hstate])
  · intro k d h hd k' d' h' hrec' hconv' hlt
    by_contra hopen'
    rw [Bool.not_eq_true] at hopen'
    simp only [hsame.sequenceOf] at hlt
    rcases origin h with ⟨cur, hcur, hmsg, hconv, hrec, -, hclaim⟩ | ⟨m, -, -, -, -, -, hstate⟩
    swap
    · exact absurd hd (by simp [hstate])
    obtain ⟨m, hm, hmconv, -⟩ := hrows.message hcur
    have hseq : s.sequenceOf d = s.sequenceOf cur := by
      rw [sequenceOf_eq (hmsg ▸ hm), sequenceOf_eq hm]
    rcases origin h' with
      ⟨cur', hcur', hmsg', hcconv', hcrec', hopen, -⟩ | ⟨m', -, hm', hmconv', -, hlast, -⟩
    · -- the earlier row was open before, against the order of the old store
      obtain ⟨m', hm', -⟩ := hrows.message hcur'
      have hseq' : s.sequenceOf d' = s.sequenceOf cur' := by
        rw [sequenceOf_eq (hmsg' ▸ hm'), sequenceOf_eq hm']
      have hterm := (hclaim hd).2 k' cur' hcur' (by rw [← hcrec', hrec', hrec])
        (by rw [← hcconv', hconv', hconv]) (by rw [← hseq', ← hseq]; exact hlt)
      rw [hopen hopen'] at hterm
      exact absurd hterm (by simp)
    · -- a new row stands at the end of its conversation
      have hle := hmsgs.sequence_le hm
      rw [hmconv, ← hconv, ← hconv', ← hmconv', ← hlast, ← sequenceOf_eq hm',
        ← sequenceOf_eq hm, ← hseq] at hle
      omega

lemma Rows.insertMessage (hmsgs : Messages s) (hrows : Rows s) (draft : Message) :
    Rows (s.insertMessage draft).2 := by
  have hrow : ∀ k, (s.insertMessage draft).2.row k = s.row k := fun _ => rfl
  have hseq {k : DeliveryKey} {d : Delivery} (h : s.row k = some d) :
      (s.insertMessage draft).2.sequenceOf d = s.sequenceOf d := by
    obtain ⟨m, hm, -⟩ := hrows.message h
    rw [sequenceOf_eq (findMessage_insertMessage_of_some hmsgs hm), sequenceOf_eq hm]
  constructor
  · exact fun h => hrows.key_eq h
  · intro k d h
    obtain ⟨m, hm, hrest⟩ := hrows.message h
    exact ⟨m, findMessage_insertMessage_of_some hmsgs hm, hrest⟩
  · exact fun h => hrows.leased h
  · intro k d h hd k' d' h' hrec hconv hlt
    rw [hrow] at h h'
    rw [hseq h, hseq h'] at hlt
    exact hrows.head h hd k' d' h' hrec hconv hlt

lemma Keyed.nodup_deliveriesByRecipient (hkeyed : Keyed s) (u : UserId) :
    ((s.deliveriesByRecipient u).map Delivery.key).Nodup := by
  have hkeys : (s.deliveries.toList.map Prod.snd).map Delivery.key =
      s.deliveries.toList.map Prod.fst := by
    rw [List.map_map]
    exact List.map_congr_left fun e he => hkeyed _ _ (mem_toList.1 he)
  have hnodup : ((s.deliveries.toList.map Prod.snd).map Delivery.key).Nodup := by
    rw [hkeys]
    exact nodup_keys_toList s.deliveries
  have hfill : (s.deliveriesByRecipient u).map Delivery.key =
      ((s.deliveries.toList.map Prod.snd).filter fun d =>
        d.recipient.value = u.value).map Delivery.key := by
    simp [deliveriesByRecipient, Function.comp_def]
  rw [hfill]
  exact hnodup.sublist (List.filter_sublist.map Delivery.key)

lemma Rows.nodup_deliveriesByRecipient (hrows : Rows s) (u : UserId) :
    ((s.deliveriesByRecipient u).map Delivery.key).Nodup :=
  Keyed.nodup_deliveriesByRecipient (fun _ _ => hrows.key_eq) u

lemma Rows.empty : Rows {} := by
  have hrow : ∀ k, row {} k = none := fun k => by simp [row]
  constructor <;> simp [hrow]

end InMemoryMessageStore

end MuduoChat
