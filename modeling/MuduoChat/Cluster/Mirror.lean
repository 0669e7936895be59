import MuduoChat.Cluster.Alone
import MuduoChat.Store.Columns
import MuduoChat.Store.Consistent

/-!
# The tables as a mirror of the in-memory adapter

A relation between the in-memory adapter and the tables of the database, and for each call what
keeps it.  Both sides look up the same conversations, number messages alike, and have the same
delivery rows, each in its own encoding.
-/

namespace MuduoChat

open Std OrderedMap InMemoryMessageStore

/-- The key of a row in the tables. -/
def DeliveryKey.columns (k : DeliveryKey) : RowKey := ⟨k.messageId, toColumn k.recipient⟩

/-- The row belongs to a message that is there, and says of it what the message says.  The
sequence may be missing until the row is in flight. -/
def InMemoryMessageStore.OfMessage (m : InMemoryMessageStore) (d : Delivery) : Prop :=
  ∃ msg, m.findMessage d.messageId = some msg ∧ msg.conversationId = d.conversationId ∧
    (d.state = .inFlight → msg.sequence = d.sequence)

/-- The row can be stored, and it belongs to a message. -/
structure InMemoryMessageStore.Fits (m : InMemoryMessageStore) (d : Delivery) : Prop where
  storable : d.Storable
  owner : d.OwnerWhole
  message : m.OfMessage d

/-- The identifiers of a command that have columns fit in them. -/
def CommandFits (sender : SessionIdentity) (cmd : SendMessageCommand) : Prop :=
  match cmd.kind with
  | .direct => sender.userId.value < 2 ^ 31 ∧ cmd.directRecipient.value < 2 ^ 31
  | .group => cmd.groupId.value < 2 ^ 31

/-- No message of the sender has the key of a draft, as the tables compare keys. -/
def InMemoryMessageStore.KeyFree (m : InMemoryMessageStore) (draft : Message) : Prop :=
  ∀ p ∈ m.messagesById.toList, p.2.senderId = draft.senderId →
    p.2.command.clientMessageId.collated ≠ draft.command.clientMessageId.collated

lemma InMemoryMessageStore.KeyFree.acceptedUnder {m : InMemoryMessageStore} {draft : Message}
    (h : m.KeyFree draft) (hmessages : Messages m) : m.acceptedUnder draft.key = none := by
  by_contra hne
  obtain ⟨msg, hmsg⟩ := Option.ne_none_iff_exists'.1 hne
  obtain ⟨hkey, hfound⟩ := hmessages.accepted_iff.1 hmsg
  refine h ⟨_, msg⟩ (mem_toList.2 hfound) (Id.ext (congrArg LexPair.first hkey)) ?_
  rw [ClientMessageId.ext (congrArg LexPair.second hkey)]

/-- A delivery to which nothing has happened yet. -/
def Delivery.Fresh (d : Delivery) : Prop :=
  d = { messageId := d.messageId, conversationId := d.conversationId, sequence := d.sequence
        recipient := d.recipient, expiresAtMs := d.expiresAtMs }

lemma Delivery.Fresh.rowOf_eq {d : Delivery} (h : d.Fresh) :
    rowOf d = { expiresAt := secondsDown d.expiresAtMs } := by
  rw [h]
  rfl

/-- The tables show what the adapter in memory holds. -/
structure Reflects (m : InMemoryMessageStore) (T : Tables) : Prop where
  messages : Messages m
  nextConversationId : T.nextConversationId = m.nextConversationId
  nextMessageId : T.nextMessageId = m.nextMessageId
  direct : ∀ a < 2 ^ 31, ∀ b < 2 ^ 31,
    T.ledger.directConversation[(⟨toColumn a, toColumn b⟩ : LexPair IntColumn IntColumn)]? =
      m.directConversations[(⟨a, b⟩ : LexPair ℕ ℕ)]?
  group : ∀ g < 2 ^ 31, T.ledger.groupConversation[toColumn g]? = m.groupConversations[g]?
  conversation : ∀ c, T.ledger.conversation[c]? =
    if 0 < c ∧ c < m.nextConversationId then some (m.lastSequence ⟨c⟩) else none
  next_pos : 0 < m.nextConversationId
  unused : ∀ c, m.nextConversationId ≤ c → m.lastSequence ⟨c⟩ = 0
  message : ∀ id, T.ledger.chatMessage[id]? =
    (m.findMessage ⟨id⟩).map fun msg => Tables.messageRow msg msg.sequence.value
  sender : ∀ {i msg}, m.findMessage i = some msg → msg.senderId.value < 2 ^ 31
  key_eq : ∀ {k d}, m.row k = some d → d.key = k
  fits : ∀ {k d}, m.row k = some d → m.Fits d
  row : ∀ k, k.recipient < 2 ^ 31 → Option.Rel RowOf (m.row k) (T.ledger.row k.columns)
  small : ∀ {k r}, T.ledger.row k = some r → ofColumn k.second < 2 ^ 31

namespace Reflects

variable {m : InMemoryMessageStore} {T : Tables}

lemma empty : Reflects {} {} := by
  have hfind : ∀ i : MessageId, findMessage {} i = none := fun i => by simp [findMessage]
  have hrow : ∀ k, InMemoryMessageStore.row {} k = none := fun k => by simp [InMemoryMessageStore.row]
  have hrow' : ∀ k, Ledger.row {} k = none := fun k => by simp [Ledger.row]
  have hlast : ∀ c : ConversationId, lastSequence {} c = 0 := fun c => by simp [lastSequence]
  constructor
  case messages => exact Messages.empty
  case conversation =>
    intro c
    rw [if_neg (by simp; omega)]
    simp
  case row =>
    intro k _
    rw [hrow, hrow']
    exact Option.Rel.none
  all_goals simp [hfind, hrow, hrow', hlast]

/-! ### Conversations -/

lemma addConversation (h : Reflects m T) {D : TreeMap (LexPair ℕ ℕ) ℕ} {G : TreeMap ℕ ℕ}
    {E : TreeMap (LexPair IntColumn IntColumn) ℕ} {F : TreeMap IntColumn ℕ}
    (hdirect : ∀ a < 2 ^ 31, ∀ b < 2 ^ 31,
      E[(⟨toColumn a, toColumn b⟩ : LexPair IntColumn IntColumn)]? = D[(⟨a, b⟩ : LexPair ℕ ℕ)]?)
    (hgroup : ∀ g < 2 ^ 31, F[toColumn g]? = G[g]?) :
    Reflects
      { m with
        nextConversationId := m.nextConversationId + 1
        directConversations := D
        groupConversations := G }
      { ledger :=
          { T.ledger with
            conversation := T.ledger.conversation.insertIfNew T.nextConversationId 0
            directConversation := E
            groupConversation := F }
        nextConversationId := T.nextConversationId + 1
        nextMessageId := T.nextMessageId } where
  messages := h.messages.congr ⟨rfl, rfl, rfl, rfl, rfl, rfl⟩
  nextConversationId := congrArg (· + 1) h.nextConversationId
  nextMessageId := h.nextMessageId
  direct := hdirect
  group := hgroup
  conversation c := by
    have hpos := h.next_pos
    have hlast : ∀ c, lastSequence
        { m with
          nextConversationId := m.nextConversationId + 1
          directConversations := D
          groupConversations := G } c = m.lastSequence c := fun _ => rfl
    rw [h.nextConversationId, getElem?_insertIfNew, hlast]
    by_cases hc : m.nextConversationId = c
    · subst hc
      simp [h.conversation, hpos, h.unused m.nextConversationId le_rfl]
    · have hiff : (0 < c ∧ c < m.nextConversationId) ↔ (0 < c ∧ c < m.nextConversationId + 1) := by
        omega
      simp only [hc, false_and, if_false, h.conversation, hiff]
  next_pos := Nat.succ_pos _
  unused c hc := h.unused c (by dsimp only at hc; omega)
  message := h.message
  sender hi := h.sender hi
  key_eq hk := h.key_eq hk
  fits hk := ⟨(h.fits hk).storable, (h.fits hk).owner, (h.fits hk).message⟩
  row := h.row
  small hk := h.small hk

lemma getOrCreateConversation (h : Reflects m T) {sender : SessionIdentity}
    {cmd : SendMessageCommand} (hfits : CommandFits sender cmd) :
    (m.getOrCreateConversation sender cmd).1 = ⟨(T.getOrCreateConversation sender cmd).1⟩ ∧
      Reflects (m.getOrCreateConversation sender cmd).2
        (T.getOrCreateConversation sender cmd).2 := by
  cases hkind : cmd.kind with
  | direct =>
    simp only [CommandFits, hkind] at hfits
    have hlow : min sender.userId.value cmd.directRecipient.value < 2 ^ 31 := by omega
    have hhigh : max sender.userId.value cmd.directRecipient.value < 2 ^ 31 := by omega
    have hfound := h.direct _ hlow _ hhigh
    simp only [InMemoryMessageStore.getOrCreateConversation, findConversation,
      Tables.getOrCreateConversation, hkind, Tables.linked, userPair, hfound]
    cases hpair : m.directConversations[(⟨min sender.userId.value cmd.directRecipient.value,
        max sender.userId.value cmd.directRecipient.value⟩ : LexPair ℕ ℕ)]? with
    | some id => exact ⟨rfl, h⟩
    | none =>
      refine ⟨by simp only [h.nextConversationId], ?_⟩
      have hadd := h.addConversation (G := m.groupConversations)
        (F := T.ledger.groupConversation)
        (D := m.directConversations.insert (userPair sender cmd) m.nextConversationId)
        (E := T.ledger.directConversation.insertIfNew
          ⟨toColumn (userPair sender cmd).first, toColumn (userPair sender cmd).second⟩
          T.nextConversationId) ?_ h.group
      · simp only [InMemoryMessageStore.addConversation, hkind]
        exact hadd
      · -- equal columns come from equal identifiers
        intro a ha b hb
        rw [getElem?_insert, getElem?_insertIfNew, h.direct a ha b hb]
        simp only [userPair, hfound, hpair, and_true, LexPair.mk.injEq, toColumn_inj hlow ha,
          toColumn_inj hhigh hb, h.nextConversationId]
  | group =>
    simp only [CommandFits, hkind] at hfits
    have hfound := h.group _ hfits
    simp only [InMemoryMessageStore.getOrCreateConversation, findConversation,
      Tables.getOrCreateConversation, hkind, Tables.linked, hfound]
    cases hid : m.groupConversations[cmd.groupId.value]? with
    | some id => exact ⟨rfl, h⟩
    | none =>
      refine ⟨by simp only [h.nextConversationId], ?_⟩
      have hadd := h.addConversation (D := m.directConversations)
        (E := T.ledger.directConversation)
        (G := m.groupConversations.insert cmd.groupId.value m.nextConversationId)
        (F := T.ledger.groupConversation.insertIfNew (toColumn cmd.groupId.value)
          T.nextConversationId) h.direct ?_
      · simp only [InMemoryMessageStore.addConversation, hkind]
        exact hadd
      · intro g hg
        rw [getElem?_insert, getElem?_insertIfNew, h.group g hg]
        simp only [hfound, hid, and_true, toColumn_inj hfits hg, h.nextConversationId]

/-! ### Messages -/

section Message

variable {draft : Message}

lemma last (h : Reflects m T) {c : ConversationId}
    (hc : 0 < c.value ∧ c.value < m.nextConversationId) :
    T.ledger.conversation[c.value]? = some (m.lastSequence c) := by
  rw [h.conversation, if_pos hc]

lemma vacant (h : Reflects m T) (hsender : draft.senderId.value < 2 ^ 31)
    (hnew : m.KeyFree draft) :
    T.vacant (Tables.messageRow draft (m.lastSequence draft.conversationId + 1)) = true := by
  simp only [Tables.vacant, ChatMessageRow.clashes, Bool.not_eq_true', List.any_eq_false,
    decide_eq_true_eq]
  rintro ⟨id, row⟩ hmem
  have hrow := mem_toList.1 hmem
  rw [h.message, Option.map_eq_some_iff] at hrow
  obtain ⟨msg, hmsg, rfl⟩ := hrow
  rintro (⟨hid, hkey⟩ | ⟨hconv, hseq⟩)
  · exact hnew ⟨id, msg⟩ (mem_toList.2 hmsg)
      (Id.ext ((toColumn_inj (h.sender hmsg) hsender).1 hid)) hkey
  · have hle := h.messages.sequence_le hmsg
    have hconv : msg.conversationId = draft.conversationId := Id.ext hconv
    have hseq : msg.sequence.value = m.lastSequence draft.conversationId + 1 := hseq
    rw [hconv] at hle
    omega

lemma accepted_eq (h : Reflects m T) :
    ({ draft with id := ⟨T.nextMessageId⟩,
                  sequence := ⟨m.lastSequence draft.conversationId + 1⟩ } : Message) =
      m.accepted draft := by
  rw [h.nextMessageId]
  rfl

lemma fits_insertMessage (h : Reflects m T) {d : Delivery} (hd : m.Fits d) :
    (m.insertMessage draft).2.Fits d := by
  obtain ⟨msg, hmsg, hrest⟩ := hd.message
  exact ⟨hd.storable, hd.owner, msg, findMessage_insertMessage_of_some h.messages hmsg, hrest⟩

lemma insertMessage (h : Reflects m T)
    (hconv : 0 < draft.conversationId.value ∧ draft.conversationId.value < m.nextConversationId)
    (hsender : draft.senderId.value < 2 ^ 31) (hnew : m.KeyFree draft) :
    Reflects (m.insertMessage draft).2
      (T.insertMessage draft (m.lastSequence draft.conversationId)) where
  messages := h.messages.insertMessage (hnew.acceptedUnder h.messages)
  nextConversationId := h.nextConversationId
  nextMessageId := congrArg (· + 1) h.nextMessageId
  direct := h.direct
  group := h.group
  conversation c := by
    have hledger : (T.insertMessage draft (m.lastSequence draft.conversationId)).ledger.conversation =
        T.ledger.conversation.insert draft.conversationId.value
          (m.lastSequence draft.conversationId + 1) := rfl
    have hnext : (m.insertMessage draft).2.nextConversationId = m.nextConversationId := rfl
    rw [hledger, getElem?_insert, h.conversation, lastSequence_insertMessage, hnext]
    by_cases hc : draft.conversationId.value = c
    · subst hc
      simp [hconv]
    · have hne : draft.conversationId ≠ ⟨c⟩ := fun heq => hc (congrArg Id.value heq)
      simp [hc, hne]
  next_pos := h.next_pos
  unused c hc := by
    have hne : draft.conversationId ≠ ⟨c⟩ := by
      rintro heq
      have hc : m.nextConversationId ≤ c := hc
      rw [heq] at hconv
      exact absurd hconv.2 (by simpa using hc)
    rw [lastSequence_insertMessage, if_neg hne]
    exact h.unused c hc
  message id := by
    have hledger : (T.insertMessage draft (m.lastSequence draft.conversationId)).ledger.chatMessage =
        T.ledger.chatMessage.insertIfNew T.nextMessageId
          (Tables.messageRow draft (m.lastSequence draft.conversationId + 1)) := rfl
    have hfresh : m.findMessage ⟨m.nextMessageId⟩ = none := by
      by_contra hne
      obtain ⟨msg, hmsg⟩ := Option.ne_none_iff_exists'.1 hne
      exact absurd (h.messages.id_lt hmsg) (by simp)
    have hid : (⟨id⟩ : MessageId) = (m.accepted draft).id ↔ m.nextMessageId = id := by
      simp [accepted, Id.ext_iff, eq_comm]
    rw [hledger, getElem?_insertIfNew, h.message, h.message, findMessage_insertMessage h.messages,
      h.nextMessageId, hfresh]
    simp only [hid, Option.map_none, and_true]
    split
    · rfl
    · rfl
  sender hi := by
    rcases findMessage_insertMessage_cases h.messages hi with ⟨-, rfl⟩ | hold
    · exact hsender
    · exact h.sender hold
  key_eq hk := h.key_eq hk
  fits hk := h.fits_insertMessage (h.fits hk)
  row := h.row
  small hk := h.small hk

end Message

/-! ### Writing one row -/

lemma withDeliveries (h : Reflects m T) {D : TreeMap DeliveryKey Delivery}
    {E : TreeMap RowKey DeliveryRow}
    (hkey : ∀ {k : DeliveryKey} {d : Delivery}, D[k]? = some d → d.key = k)
    (hfits : ∀ {k : DeliveryKey} {d : Delivery}, D[k]? = some d → m.Fits d)
    (hrow : ∀ k : DeliveryKey, k.recipient < 2 ^ 31 → Option.Rel RowOf D[k]? E[k.columns]?)
    (hsmall : ∀ {k : RowKey} {r : DeliveryRow}, E[k]? = some r → ofColumn k.second < 2 ^ 31) :
    Reflects { m with deliveries := D } (T.withDeliveries E) where
  messages := h.messages.congr ⟨rfl, rfl, rfl, rfl, rfl, rfl⟩
  nextConversationId := h.nextConversationId
  nextMessageId := h.nextMessageId
  direct := h.direct
  group := h.group
  conversation := h.conversation
  next_pos := h.next_pos
  unused := h.unused
  message := h.message
  sender hi := h.sender hi
  key_eq hk := hkey hk
  fits hk := ⟨(hfits hk).storable, (hfits hk).owner, (hfits hk).message⟩
  row := hrow
  small hk := hsmall hk

lemma columns_inj {k k' : DeliveryKey} (hk : k.recipient < 2 ^ 31) (hk' : k'.recipient < 2 ^ 31) :
    k.columns = k'.columns ↔ k = k' := by
  simp only [DeliveryKey.columns, LexPair.mk.injEq, toColumn_inj hk hk', DeliveryKey.ext_iff]

lemma isSome_row (h : Reflects m T) {k : DeliveryKey} (hk : k.recipient < 2 ^ 31) :
    (T.ledger.row k.columns).isSome = (m.row k).isSome := by
  have hrow := h.row k hk
  generalize m.row k = x, T.ledger.row k.columns = y at hrow
  cases hrow with
  | some => rfl
  | none => rfl

/-- One row is written on both sides, if it is written at all. -/
lemma writeRow (h : Reflects m T) {d : Delivery} {r : DeliveryRow} {c : Prop} [Decidable c]
    {D : TreeMap DeliveryKey Delivery} {E : TreeMap RowKey DeliveryRow}
    (hrecipient : d.recipient.value < 2 ^ 31) (hd : c → m.Fits d ∧ RowOf d r)
    (hD : ∀ k : DeliveryKey, D[k]? = if d.key = k ∧ c then some d else m.row k)
    (hE : ∀ k : RowKey, E[k]? = if d.key.columns = k ∧ c then some r else T.ledger.row k) :
    Reflects { m with deliveries := D } (T.withDeliveries E) := by
  refine h.withDeliveries ?_ ?_ ?_ ?_
  · intro k d' hk
    rw [hD] at hk
    split_ifs at hk with hwritten
    · cases hk
      exact hwritten.1
    · exact h.key_eq hk
  · intro k d' hk
    rw [hD] at hk
    split_ifs at hk with hwritten
    · cases hk
      exact (hd hwritten.2).1
    · exact h.fits hk
  · intro k hk
    rw [hD, hE]
    simp only [columns_inj (k := d.key) hrecipient hk]
    split_ifs with hwritten
    · exact Option.Rel.some (hd hwritten.2).2
    · exact h.row k hk
  · intro k r' hk
    rw [hE] at hk
    split_ifs at hk with hwritten
    · rw [← hwritten.1]
      exact (ofColumn_toColumn hrecipient).trans_lt hrecipient
    · exact h.small hk

lemma insertDelivery (h : Reflects m T) {d : Delivery} (hrecipient : d.recipient.value < 2 ^ 31)
    (hfresh : m.row d.key = none → d.Fresh ∧ m.Fits d) :
    Reflects (m.insertDelivery d) (T.insertDelivery d) := by
  have hrowKey : rowKey d = d.key.columns := rfl
  have hsome := h.isSome_row (k := d.key) hrecipient
  have hwrite : m.row d.key = none →
      m.Fits d ∧ RowOf d { expiresAt := secondsDown d.expiresAtMs } := by
    intro hnew
    obtain ⟨hf, hd⟩ := hfresh hnew
    exact ⟨hd, hf.rowOf_eq ▸ RowOf.rowOf hd.storable⟩
  rw [Tables.insertDelivery, hrowKey]
  split_ifs with hrow
  · have hold : m.row d.key ≠ none := Option.isSome_iff_ne_none.1 (hsome ▸ hrow)
    refine h.writeRow (E := T.ledger.messageDelivery) hrecipient hwrite
      (m.row_insertDelivery d) fun k => ?_
    rw [if_neg fun hnew => hold hnew.2]
    rfl
  · have hnew : m.row d.key = none := Option.not_isSome_iff_eq_none.1 (hsome ▸ hrow)
    refine h.writeRow hrecipient hwrite (m.row_insertDelivery d) fun k =>
      (getElem?_insertIfNew _ _ _ _).trans ?_
    have habsent : T.ledger.messageDelivery[d.key.columns]? = none :=
      Option.not_isSome_iff_eq_none.1 hrow
    simp only [habsent, hnew, Ledger.row]

lemma updateDelivery (h : Reflects m T) {d : Delivery} (hrecipient : d.recipient.value < 2 ^ 31)
    (hfits : (m.row d.key).isSome → m.Fits d) :
    Reflects (m.updateDelivery d) (T.updateDelivery d) := by
  refine h.writeRow hrecipient
    (fun hsome => ⟨hfits hsome, RowOf.rowOf (hfits hsome).storable⟩) (m.row_updateDelivery d)
    fun k => ?_
  have hrowKey : rowKey d = d.key.columns := rfl
  rw [hrowKey, h.isSome_row (k := d.key) hrecipient]
  by_cases hpresent : (m.row d.key).isSome
  · simp only [hpresent, if_true, and_true, getElem?_insert, Ledger.row]
  · simp only [hpresent, Bool.false_eq_true, if_false, and_false, Ledger.row]

end Reflects

end MuduoChat
