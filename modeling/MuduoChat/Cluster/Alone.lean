import MuduoChat.Cluster.System
import MuduoChat.Lib.Total

/-!
# A process alone at the database

When no other process has a transaction open and no statement fails, the programs of the MySQL
adapter always come to an end, and what they do can be said in terms of the tables that the
process sees, its open accept included.  A call that is no part of an accept finds an accept that
was left open and commits it, which does not change what the process sees.
-/

namespace MuduoChat

open Std MySQLMessageStore

/-- No statement fails, and the hook does not throw. -/
structure ClusterEnv.Reliable (ω : ClusterEnv) : Prop where
  errno : ω.sql.errno = 0
  hook : ω.hook = none

lemma ClusterEnv.reliable_default : (default : ClusterEnv).Reliable := ⟨rfl, rfl⟩

/-- The tables that a process sees, and the counters of the generated keys. -/
@[ext] structure Tables where
  ledger : Ledger := {}
  nextConversationId : ℕ := 1
  nextMessageId : ℕ := 1

namespace Tables

def apply (T : Tables) (w : Write) : Tables := { T with ledger := T.ledger.apply w }

/-- The tables with a new conversation, before it is linked. -/
def addConversation (T : Tables) : Tables :=
  { T.apply (.conversation T.nextConversationId) with
    nextConversationId := T.nextConversationId + 1 }

/-- The conversation that was found, or a new one with its link. -/
def linked (T : Tables) (found : Option ℕ) (link : ℕ → Write) : ℕ × Tables :=
  match found with
  | some id => (id, T)
  | none => (T.nextConversationId, T.addConversation.apply (link T.nextConversationId))

/-- The conversation of a command.  A new one is made if there is none yet. -/
def getOrCreateConversation (T : Tables) (sender : SessionIdentity) (cmd : SendMessageCommand) :
    ℕ × Tables :=
  match cmd.kind with
  | .direct =>
    let pair := InMemoryMessageStore.userPair sender cmd
    let columns : LexPair IntColumn IntColumn := ⟨toColumn pair.first, toColumn pair.second⟩
    T.linked T.ledger.directConversation[columns]? (.direct columns.first columns.second)
  | .group =>
    T.linked T.ledger.groupConversation[toColumn cmd.groupId.value]?
      (.group (toColumn cmd.groupId.value))

def messageRow (draft : Message) (sequence : ℕ) : ChatMessageRow where
  conversationId := draft.conversationId.value
  senderId := toColumn draft.senderId.value
  clientMessageId := draft.command.clientMessageId
  sequence := sequence
  content := draft.command.content

/-- Neither the key of the message nor its place in the conversation is taken. -/
def vacant (T : Tables) (row : ChatMessageRow) : Bool :=
  !T.ledger.chatMessage.toList.any fun m => m.2.clashes row

/-- The tables with a new message behind the last one of its conversation. -/
def insertMessage (T : Tables) (draft : Message) (last : ℕ) : Tables :=
  { ((T.apply (.nextSequence draft.conversationId.value (last + 1))).apply
      (.message T.nextMessageId (messageRow draft (last + 1)))).apply
        (.outbox T.nextMessageId (encodeCommandSnapshot draft.command)) with
    nextMessageId := T.nextMessageId + 1 }

/-- The tables with a delivery row, which is left alone if it is there. -/
def insertDelivery (T : Tables) (d : Delivery) : Tables :=
  if (T.ledger.row (rowKey d)).isSome then T
  else T.apply (.delivery (rowKey d) (secondsDown d.expiresAtMs))

/-- The tables with another table of deliveries. -/
def withDeliveries (T : Tables) (deliveries : TreeMap RowKey DeliveryRow) : Tables :=
  { T with ledger := { T.ledger with messageDelivery := deliveries } }

/-- The tables with a delivery row overwritten, if it is there. -/
def updateDelivery (T : Tables) (d : Delivery) : Tables :=
  T.withDeliveries
    (if (T.ledger.row (rowKey d)).isSome then T.ledger.messageDelivery.insert (rowKey d) (rowOf d)
    else T.ledger.messageDelivery)

/-- The tables after rows have expired. -/
def expire (T : Tables) (order : List RowKey) (nowSecs : ℤ) (limit : ℕ) : Tables :=
  T.withDeliveries (OrderedMap.rewriteAll Ledger.expired T.ledger.messageDelivery
    (T.ledger.selectExpiring order nowSecs limit))

/-- The tables without the rows that have a property, and how many there were. -/
def deleteRows (T : Tables) (order : List RowKey) (p : RowKey → DeliveryRow → Bool)
    (limit : ℕ) : ℕ × Tables :=
  ((T.ledger.deleteRows order p limit).1,
    { T with ledger := (T.ledger.deleteRows order p limit).2 })

/-- The tables after a cleanup, and how many rows it removed. -/
def cleanup (T : Tables) (order order' : List RowKey) (ackedBefore expiredBefore : ℤ)
    (limit : ℕ) : ℕ × Tables :=
  let acked := T.deleteRows order
    (Ledger.outlived .acknowledged DeliveryRow.acknowledgedAt ackedBefore) limit
  let expired := acked.2.deleteRows order'
    (Ledger.outlived .expired DeliveryRow.expiresAt expiredBefore) limit
  (acked.1 + expired.1, expired.2)

end Tables

namespace Database

variable {ι : Type} [DecidableEq ι] {db : Database ι} {i : ι}

/-- The connection has a transaction, and no other one has. -/
def OpenBy (db : Database ι) (i : ι) : Prop := ∃ t, db.transactions = [(i, t)]

lemma others_of_openBy (h : db.OpenBy i) : db.others i = [] := by
  obtain ⟨t, ht⟩ := h
  simp [others, ht]

lemma not_blocked (h : db.OpenBy i ∨ db.transactions = []) (l : Lock) :
    db.blocked i l = false := by
  have hothers : db.others i = [] := by
    rcases h with h | h
    · exact others_of_openBy h
    · simp [others, h]
  simp [blocked, hothers]

lemma view_of_closed (h : db.transactions = []) : db.view i = db.ledger := by
  simp [view, transaction, h]

lemma openBy_hold (h : db.OpenBy i) (l : Lock) : (db.hold i l).OpenBy i := by
  obtain ⟨t, ht⟩ := h
  exact ⟨{ t with locks := l :: t.locks }, by simp [hold, transaction, others, ht]⟩

lemma view_hold (h : db.OpenBy i) (l : Lock) : (db.hold i l).view i = db.view i := by
  obtain ⟨t, ht⟩ := h
  simp [hold, view, transaction, others, ht]

lemma openBy_write (h : db.OpenBy i) (w : Write) : (db.write i w).OpenBy i := by
  obtain ⟨t, ht⟩ := h
  exact ⟨{ t with writes := t.writes ++ [w] }, by simp [write, transaction, others, ht]⟩

lemma view_write (h : db.OpenBy i) (w : Write) : (db.write i w).view i = (db.view i).apply w := by
  obtain ⟨t, ht⟩ := h
  simp [write, view, transaction, others, ht, List.foldl_append]

end Database

namespace Cluster

variable {ι : Type} [DecidableEq ι] {i : ι} {s : Cluster ι} {α : Type}

/-- The tables as the process sees them. -/
def tables (i : ι) (s : Cluster ι) : Tables :=
  ⟨s.db.view i, s.db.nextConversationId, s.db.nextMessageId⟩

/-- No accept is open. -/
structure Idle (i : ι) (s : Cluster ι) : Prop where
  guard : (s.tx i).guard = none
  transactions : s.db.transactions = []

/-- An accept of the process is open, and no other transaction. -/
structure Open (i : ι) (s : Cluster ι) : Prop where
  guard : (s.tx i).guard = some true
  openBy : s.db.OpenBy i

def Alone (i : ι) (s : Cluster ι) : Prop := Idle i s ∨ Open i s

lemma Idle.tables_eq (h : Idle i s) :
    s.tables i = ⟨s.db.ledger, s.db.nextConversationId, s.db.nextMessageId⟩ := by
  rw [tables, Database.view_of_closed h.transactions]

/-! ### Single calls -/

/-- The program ends in a value that `Q` accepts. -/
def Does (i : ι) (p : Query α) (Q : α → Cluster ι → Prop) (s : Cluster ι) : Prop :=
  p.Completes (handleWire i) ClusterEnv.Reliable Q s

variable {Q : α → Cluster ι → Prop}

lemma Does.bind {β : Type} {p : Query β} {f : β → Query α}
    (h : Does i p (fun b s1 => Does i (f b) Q s1) s) : Does i (p >>= f) Q s :=
  Prog.Completes.bind h

lemma Does.mono {Q' : α → Cluster ι → Prop} {p : Query α} (h : Does i p Q s)
    (hQ : ∀ a s, Q a s → Q' a s) : Does i p Q' s :=
  Prog.Completes.mono h hQ

lemma Does.guarded {p : Query α} (h : Does i p Q s) : Does i (guarded p) Q s :=
  Prog.Completes.tryCatch h

lemma does_sql {c : Sql} {Q : c.Value → Cluster ι → Prop}
    (h : ∀ order, ∃ v db', Database.exec i order c s.db = some (v, db') ∧ Q v { s with db := db' }) :
    Does i (sql c) Q s := by
  refine Prog.Completes.ask fun ω hω => ?_
  obtain ⟨v, db', hexec, hQ⟩ := h ω.sql.order
  refine ⟨v, { s with db := db' }, ?_, hQ⟩
  simp [handleWire, Database.handle, hω.errno, hexec, Except.mapError]

lemma does_fire {step : HookStep} {Q : Unit → Cluster ι → Prop} (h : Q () s) :
    Does i (fire step) Q s := by
  refine Prog.Completes.ask fun ω hω => ⟨(), s, ?_, h⟩
  simp [handleWire, hω.hook]

lemma does_getTx {Q : AcceptTx → Cluster ι → Prop} (h : Q (s.tx i) s) : Does i getTx Q s :=
  Prog.Completes.ask fun _ _ => ⟨s.tx i, s, rfl, h⟩

lemma does_setTx {tx : AcceptTx} {Q : Unit → Cluster ι → Prop}
    (h : Q () { s with tx := Function.update s.tx i tx }) : Does i (setTx tx) Q s :=
  Prog.Completes.ask fun _ _ => ⟨(), _, rfl, h⟩

/-! ### The transaction of an accept -/

lemma does_acquire {Q : Unit → Cluster ι → Prop} (h : Q () s) : Does i acquire Q s := by
  refine Does.bind (does_sql (c := .acquire) fun order => ⟨true, s.db, rfl, ?_⟩)
  exact h

lemma does_beginTx {Q : Unit → Cluster ι → Prop} (hs : Alone i s)
    (h : ∀ s1, Open i s1 → s1.tables i = s.tables i →
      (s1.tx i).expectedDeliveries = (s.tx i).expectedDeliveries →
      (s1.tx i).insertedDeliveries = (s.tx i).insertedDeliveries → Q () s1) :
    Does i beginTx Q s := by
  refine Does.bind (does_getTx ?_)
  rcases hs with hidle | hopen
  · rw [hidle.guard]
    refine Does.bind (Does.bind (does_acquire ?_))
    refine Does.bind (does_sql (c := .setIsolation) fun order => ⟨true, s.db, rfl, ?_⟩)
    refine does_sql (c := .startTransaction) fun order => ⟨(), s.db.start i, rfl, ?_⟩
    refine does_setTx (h _ ⟨?_, {}, ?_⟩ ?_ ?_ ?_)
    · simp
    · simp [Database.start, Database.others, hidle.transactions]
    · simp [tables, Database.view, Database.start, Database.transaction, hidle.transactions]
    · simp
    · simp
  · rw [hopen.guard]
    exact h s hopen rfl rfl rfl

lemma does_commitTx {Q : Unit → Cluster ι → Prop} (hs : Alone i s)
    (h : ∀ s1, Idle i s1 → s1.tables i = s.tables i → Q () s1) : Does i commitTx Q s := by
  refine Does.bind (does_getTx ?_)
  rcases hs with hidle | hopen
  · rw [hidle.guard]
    exact h s hidle rfl
  · obtain ⟨t, ht⟩ := hopen.openBy
    rw [hopen.guard]
    refine Does.bind (Does.bind (does_getTx ?_))
    rw [hopen.guard]
    refine Does.bind (does_sql (c := .commit) fun order => ⟨none, s.db.commit i, rfl, ?_⟩)
    refine Does.bind (does_fire ?_)
    refine Does.bind (Does.bind (does_getTx ?_))
    have hguard : ({ s with db := s.db.commit i } : Cluster ι).tx i = s.tx i := rfl
    rw [hguard, hopen.guard]
    refine Does.bind (does_sql (c := .rollback) fun order => ⟨true, _, rfl, ?_⟩)
    refine does_setTx (does_setTx (h _ ⟨?_, ?_⟩ ?_))
    · simp
    · simp [Database.commit, Database.rollback, Database.others, ht]
    · simp [tables, Database.commit, Database.rollback, Database.others, Database.view,
        Database.transaction, ht]

lemma does_lease {Q : Unit → Cluster ι → Prop} (hs : Alone i s)
    (h : ∀ s1, Idle i s1 → s1.tables i = s.tables i → Q () s1) : Does i lease Q s :=
  Does.bind (does_commitTx hs fun s1 hidle htables => does_acquire (h s1 hidle htables))

/-! ### The calls of an accept -/

lemma Open.write (hs : Open i s) (w : Write) :
    Open i { s with db := s.db.write i w } ∧
      ({ s with db := s.db.write i w } : Cluster ι).tables i = (s.tables i).apply w := by
  refine ⟨⟨hs.guard, Database.openBy_write hs.openBy w⟩, ?_⟩
  obtain ⟨t, ht⟩ := hs.openBy
  rw [tables, Database.view_write hs.openBy, tables, Tables.apply]
  simp [Database.write, Database.transaction, ht]

lemma Open.hold (hs : Open i s) (l : Lock) :
    Open i { s with db := s.db.hold i l } ∧
      ({ s with db := s.db.hold i l } : Cluster ι).tables i = s.tables i := by
  refine ⟨⟨hs.guard, Database.openBy_hold hs.openBy l⟩, ?_⟩
  obtain ⟨t, ht⟩ := hs.openBy
  rw [tables, Database.view_hold hs.openBy, tables]
  simp [Database.hold, Database.transaction, ht]

lemma Open.insertUnique (hs : Open i s) (l : Lock) (w : Write) :
    ∃ db', s.db.insertUnique i l false w = some (false, db') ∧ Open i { s with db := db' } ∧
      ({ s with db := db' } : Cluster ι).tables i = (s.tables i).apply w := by
  obtain ⟨hopen, htables⟩ := hs.hold l
  obtain ⟨hopen', htables'⟩ := hopen.write w
  refine ⟨(s.db.hold i l).write i w, ?_, hopen', by rw [htables', htables]⟩
  simp [Database.insertUnique, Database.not_blocked (.inl hs.openBy)]

lemma does_findOrCreate {insertLink : ℕ → Query Bool} {find : Query (Option ℕ)}
    {found : Option ℕ} {link : ℕ → Write} {Q : ℕ → Cluster ι → Prop} (hs : Open i s)
    (hfind : ∀ {Q : Option ℕ → Cluster ι → Prop}, Q found s → Does i find Q s)
    (hlink : ∀ {Q : Bool → Cluster ι → Prop} id s1, found = none → Open i s1 →
      s1.tables i = (s.tables i).addConversation →
      (∀ s2, Open i s2 → s2.tables i = (s1.tables i).apply (link id) → Q false s2) →
      Does i (insertLink id) Q s1)
    (h : ∀ s1, Open i s1 → s1.tables i = ((s.tables i).linked found link).2 →
      Q ((s.tables i).linked found link).1 s1) :
    Does i (findOrCreate insertLink find) Q s := by
  refine Does.bind (does_fire (Does.bind (hfind ?_)))
  cases found with
  | some id => exact h s hs rfl
  | none =>
    refine Does.bind (does_fire ?_)
    have htaken : Open i
        { s with db := { s.db with nextConversationId := s.db.nextConversationId + 1 } } :=
      ⟨hs.guard, hs.openBy⟩
    obtain ⟨hopen, htables⟩ := htaken.write (.conversation s.db.nextConversationId)
    refine Does.bind (does_sql (c := .insertConversation) fun order => ⟨_, _, rfl, ?_⟩)
    refine Does.bind (does_fire (Does.bind (hlink _ _ rfl hopen htables fun s2 hopen2 h2 => ?_)))
    exact h s2 hopen2 (h2.trans (by rw [htables]; rfl))

lemma does_directConversation {low high : IntColumn} {Q : ℕ → Cluster ι → Prop} (hs : Open i s)
    (h : ∀ s1, Open i s1 →
      s1.tables i = ((s.tables i).linked
        (s.tables i).ledger.directConversation[(⟨low, high⟩ : LexPair IntColumn IntColumn)]?
        (.direct low high)).2 →
      Q ((s.tables i).linked
        (s.tables i).ledger.directConversation[(⟨low, high⟩ : LexPair IntColumn IntColumn)]?
        (.direct low high)).1 s1) :
    Does i (directConversation low high) Q s := by
  refine does_findOrCreate hs (fun hQ => ?_) (fun id s1 hnone hopen htables hQ => ?_) h
  · exact does_sql (c := .selectDirectConversation low high) fun order => ⟨_, s.db, rfl, hQ⟩
  · have hfree : (s1.db.view i).directConversation.contains
        (⟨low, high⟩ : LexPair IntColumn IntColumn) = false := by
      have hledger : s1.db.view i = (s.tables i).addConversation.ledger :=
        congrArg Tables.ledger htables
      rw [hledger, TreeMap.contains_eq_isSome_getElem?]
      exact congrArg Option.isSome hnone
    obtain ⟨db', hinsert, hopen', htables'⟩ :=
      hopen.insertUnique (.direct low high) (.direct low high id)
    refine does_sql (c := .insertDirectConversation id low high) fun order =>
      ⟨false, db', ?_, hQ _ hopen' htables'⟩
    simp only [Database.exec, hfree]
    exact hinsert

lemma does_groupConversation {groupId : IntColumn} {Q : ℕ → Cluster ι → Prop} (hs : Open i s)
    (h : ∀ s1, Open i s1 →
      s1.tables i = ((s.tables i).linked (s.tables i).ledger.groupConversation[groupId]?
        (.group groupId)).2 →
      Q ((s.tables i).linked (s.tables i).ledger.groupConversation[groupId]?
        (.group groupId)).1 s1) :
    Does i (groupConversation groupId) Q s := by
  refine does_findOrCreate hs (fun hQ => ?_) (fun id s1 hnone hopen htables hQ => ?_) h
  · exact does_sql (c := .selectGroupConversation groupId) fun order => ⟨_, s.db, rfl, hQ⟩
  · have hfree : (s1.db.view i).groupConversation.contains groupId = false := by
      have hledger : s1.db.view i = (s.tables i).addConversation.ledger :=
        congrArg Tables.ledger htables
      rw [hledger, TreeMap.contains_eq_isSome_getElem?]
      exact congrArg Option.isSome hnone
    obtain ⟨db', hinsert, hopen', htables'⟩ := hopen.insertUnique (.group groupId) (.group groupId id)
    refine does_sql (c := .insertGroupConversation id groupId) fun order =>
      ⟨false, db', ?_, hQ _ hopen' htables'⟩
    simp only [Database.exec, hfree]
    exact hinsert

lemma does_getOrCreateConversation {fanOutCap : ℕ} {sender : SessionIdentity}
    {cmd : SendMessageCommand} {Q : ConversationId → Cluster ι → Prop}
    (hcap : ¬(cmd.kind = .group ∧ cmd.members.length > fanOutCap)) (hs : Alone i s)
    (h : ∀ s1, Open i s1 →
      s1.tables i = ((s.tables i).getOrCreateConversation sender cmd).2 →
      Q ⟨((s.tables i).getOrCreateConversation sender cmd).1⟩ s1) :
    Does i (getOrCreateConversation fanOutCap sender cmd) Q s := by
  unfold MySQLMessageStore.getOrCreateConversation
  rw [if_neg hcap]
  refine Does.guarded (Does.bind (does_commitTx hs fun s1 hidle htables1 => ?_))
  refine Does.bind (does_beginTx (.inl hidle) fun s2 hopen htables2 _ _ => ?_)
  refine Does.bind (does_getTx (Does.bind (does_setTx ?_)))
  generalize hs3 : ({ s2 with tx := Function.update s2.tx i { s2.tx i with
      expectedDeliveries := if cmd.kind = .direct then 1 else cmd.members.length
      insertedDeliveries := 0 } } : Cluster ι) = s3
  have hopen3 : Open i s3 := by
    subst hs3
    exact ⟨by simp [hopen.guard], hopen.openBy⟩
  have htables3 : s3.tables i = s.tables i := by
    subst hs3
    exact htables2.trans htables1
  rw [← htables3] at h
  cases hkind : cmd.kind with
  | direct =>
    simp only [Tables.getOrCreateConversation, hkind] at h
    exact Does.bind (does_directConversation hopen3 h)
  | group =>
    simp only [Tables.getOrCreateConversation, hkind] at h
    exact Does.bind (does_groupConversation hopen3 h)

lemma does_lockConversation {id last : ℕ} {Q : Option ℕ → Cluster ι → Prop} (hs : Open i s)
    (hlast : (s.tables i).ledger.conversation[id]? = some last)
    (h : ∀ s1, Open i s1 → s1.tables i = s.tables i → Q (some last) s1) :
    Does i (sql (.lockConversation id)) Q s := by
  obtain ⟨hopen, htables⟩ := hs.hold (.conversation id)
  refine does_sql (c := .lockConversation id) fun order =>
    ⟨some last, s.db.hold i (.conversation id), ?_, h _ hopen htables⟩
  simp only [Database.exec, Database.not_blocked (.inl hs.openBy)]
  exact congrArg (fun o => some (o, s.db.hold i (.conversation id))) hlast

lemma does_updateConversation {id sequence : ℕ} {Q : Unit → Cluster ι → Prop} (hs : Open i s)
    (h : ∀ s1, Open i s1 → s1.tables i = (s.tables i).apply (.nextSequence id sequence) →
      Q () s1) :
    Does i (sql (.updateConversation id sequence)) Q s := by
  obtain ⟨hopen, htables⟩ := hs.hold (.conversation id)
  obtain ⟨hopen', htables'⟩ := hopen.write (.nextSequence id sequence)
  refine does_sql (c := .updateConversation id sequence) fun order =>
    ⟨(), (s.db.hold i (.conversation id)).write i (.nextSequence id sequence), ?_,
      h _ hopen' (htables'.trans (by rw [htables]))⟩
  simp only [Database.exec, Database.not_blocked (.inl hs.openBy)]
  rfl

lemma does_insertChatMessage {row : ChatMessageRow} {Q : Option ℕ → Cluster ι → Prop}
    (hs : Open i s) (hvacant : (s.tables i).vacant row = true)
    (h : ∀ s1, Open i s1 →
      s1.tables i =
        { (s.tables i).apply (.message (s.tables i).nextMessageId row) with
          nextMessageId := (s.tables i).nextMessageId + 1 } →
      Q (some (s.tables i).nextMessageId) s1) :
    Does i (sql (.insertChatMessage row)) Q s := by
  have htaken : Open i { s with db := { s.db with nextMessageId := s.db.nextMessageId + 1 } } :=
    ⟨hs.guard, hs.openBy⟩
  obtain ⟨db', hinsert, hopen, htables⟩ := htaken.insertUnique
    (.message row.senderId row.clientMessageId.collated) (.message s.db.nextMessageId row)
  refine does_sql (c := .insertChatMessage row) fun order =>
    ⟨some s.db.nextMessageId, db', ?_, h _ hopen htables⟩
  simp only [Tables.vacant, Bool.not_eq_true'] at hvacant
  simp only [Database.exec]
  erw [hvacant, hinsert]
  rfl

lemma does_insertOutboxEvent {messageId : ℕ} {payload : Json} {Q : Unit → Cluster ι → Prop}
    (hs : Open i s)
    (h : ∀ s1, Open i s1 → s1.tables i = (s.tables i).apply (.outbox messageId payload) →
      Q () s1) :
    Does i (sql (.insertOutboxEvent messageId payload)) Q s := by
  obtain ⟨hopen, htables⟩ := hs.write (.outbox messageId payload)
  exact does_sql (c := .insertOutboxEvent messageId payload) fun order =>
    ⟨(), _, rfl, h _ hopen htables⟩

lemma does_insertMessage {draft : Message} {last : ℕ} {Q : Message → Cluster ι → Prop}
    (hs : Alone i s)
    (hlast : (s.tables i).ledger.conversation[draft.conversationId.value]? = some last)
    (hvacant : (s.tables i).vacant (Tables.messageRow draft (last + 1)) = true)
    (h : ∀ s1, Alone i s1 → s1.tables i = (s.tables i).insertMessage draft last →
      Q { draft with id := ⟨(s.tables i).nextMessageId⟩, sequence := ⟨last + 1⟩ } s1) :
    Does i (insertMessage draft) Q s := by
  refine Does.guarded (Does.bind (does_beginTx hs fun s1 hopen1 htables1 _ _ => ?_))
  rw [← htables1] at hlast hvacant h
  refine Does.bind (does_fire (Does.bind ?_))
  refine does_lockConversation hopen1 hlast fun s2 hopen2 htables2 => ?_
  rw [← htables2] at hvacant h
  refine Does.bind (does_fire (Does.bind ?_))
  refine does_updateConversation hopen2 fun s3 hopen3 htables3 => ?_
  refine Does.bind (does_fire (Does.bind ?_))
  have hvacant3 : (s3.tables i).vacant (Tables.messageRow draft (last + 1)) = true := by
    rw [htables3]
    exact hvacant
  refine does_insertChatMessage hopen3 hvacant3 fun s4 hopen4 htables4 => ?_
  refine Does.bind (does_fire (Does.bind ?_))
  refine does_insertOutboxEvent hopen4 fun s5 hopen5 htables5 => ?_
  have hnext : (s3.tables i).nextMessageId = (s2.tables i).nextMessageId := by
    rw [htables3]
    rfl
  have htables : s5.tables i = (s2.tables i).insertMessage draft last := by
    rw [htables5, htables4, htables3]
    rfl
  rw [← hnext] at h
  -- a command without recipients is committed here
  refine Does.bind (does_getTx (Does.bind ?_))
  by_cases hexpected : (s5.tx i).expectedDeliveries = 0
  · rw [Prog.when, if_pos (decide_eq_true hexpected)]
    exact does_commitTx (.inr hopen5) fun s6 hidle htables6 =>
      h s6 (.inl hidle) (htables6.trans htables)
  · rw [Prog.when, if_neg (by simpa using hexpected)]
    exact h s5 (.inr hopen5) htables

lemma does_insertMessageDelivery {key : RowKey} {expiresAt : Option ℤ}
    {Q : Bool → Cluster ι → Prop} (hs : Open i s)
    (h : ∀ duplicate s1, Open i s1 →
      s1.tables i = (if ((s.tables i).ledger.row key).isSome then s.tables i
        else (s.tables i).apply (.delivery key expiresAt)) → Q duplicate s1) :
    Does i (sql (.insertMessageDelivery key expiresAt)) Q s := by
  by_cases hrow : ((s.tables i).ledger.row key).isSome = true
  · rw [if_pos hrow] at h
    refine does_sql (c := .insertMessageDelivery key expiresAt) fun order =>
      ⟨true, s.db, ?_, h true s hs rfl⟩
    simp only [Database.exec, Database.insertUnique, Database.not_blocked (.inl hs.openBy)]
    erw [hrow]
    rfl
  · rw [if_neg hrow] at h
    obtain ⟨db', hinsert, hopen, htables⟩ :=
      hs.insertUnique (.delivery key) (.delivery key expiresAt)
    refine does_sql (c := .insertMessageDelivery key expiresAt) fun order =>
      ⟨false, db', ?_, h false _ hopen htables⟩
    rw [Bool.not_eq_true] at hrow
    simp only [Database.exec]
    erw [hrow]
    exact hinsert

lemma does_insertDelivery {d : Delivery} {Q : Unit → Cluster ι → Prop} (hs : Alone i s)
    (h : ∀ s1, Alone i s1 → s1.tables i = (s.tables i).insertDelivery d → Q () s1) :
    Does i (insertDelivery d) Q s := by
  refine Does.guarded (Does.bind (does_beginTx hs fun s1 hopen1 htables1 _ _ => ?_))
  rw [← htables1] at h
  refine Does.bind (does_fire (Does.bind ?_))
  refine does_insertMessageDelivery hopen1 fun _ s2 hopen2 htables2 => ?_
  refine Does.bind (does_getTx (Does.bind (does_setTx ?_)))
  generalize hs3 : ({ s2 with tx := Function.update s2.tx i { s2.tx i with
      insertedDeliveries := (s2.tx i).insertedDeliveries + 1 } } : Cluster ι) = s3
  have hopen3 : Open i s3 := by
    subst hs3
    exact ⟨by simp [hopen2.guard], hopen2.openBy⟩
  have htables3 : s3.tables i = (s1.tables i).insertDelivery d := by
    subst hs3
    exact htables2
  by_cases hlast : (s2.tx i).insertedDeliveries + 1 = (s2.tx i).expectedDeliveries
  · rw [Prog.when, if_pos (decide_eq_true hlast)]
    exact does_commitTx (.inr hopen3) fun s4 hidle htables4 =>
      h s4 (.inl hidle) (htables4.trans htables3)
  · rw [Prog.when, if_neg (by simpa using hlast)]
    exact h s3 (.inr hopen3) htables3

/-! ### The other calls -/

lemma does_sql_idle {c : Sql} {Q : c.Value → Cluster ι → Prop} {v : List RowKey → c.Value}
    {l : List RowKey → Ledger} (hs : Idle i s)
    (hexec : ∀ order, Database.exec i order c s.db =
      some (v order, { s.db with ledger := l order }))
    (h : ∀ order s1, Idle i s1 → s1.tables i = { s.tables i with ledger := l order } →
      Q (v order) s1) :
    Does i (sql c) Q s := by
  refine does_sql fun order => ⟨v order, _, hexec order, ?_⟩
  have hidle : Idle i { s with db := { s.db with ledger := l order } } :=
    ⟨hs.guard, hs.transactions⟩
  exact h order _ hidle (by rw [hidle.tables_eq, hs.tables_eq])

lemma Idle.ledger_eq (hs : Idle i s) : s.db.ledger = (s.tables i).ledger := by
  rw [hs.tables_eq]

lemma does_updateDelivery {d : Delivery} {Q : Unit → Cluster ι → Prop} (hs : Alone i s)
    (h : ∀ s1, Alone i s1 → s1.tables i = (s.tables i).updateDelivery d → Q () s1) :
    Does i (updateDelivery d) Q s := by
  refine Does.bind (does_lease hs fun s1 hidle htables1 => ?_)
  rw [← htables1] at h
  refine does_sql_idle (v := fun _ => ())
    (l := fun _ => ((s1.tables i).updateDelivery d).ledger) hidle (fun order => ?_)
    fun order s2 hidle2 htables2 => h s2 (.inl hidle2) htables2
  simp only [Database.exec, Database.not_blocked (.inr hidle.transactions), hidle.ledger_eq]
  rfl

lemma does_deliveriesWhere {cond : DeliveryWhere} {Q : List Delivery → Cluster ι → Prop}
    (hs : Alone i s)
    (h : ∀ order s1, Alone i s1 → s1.tables i = s.tables i →
      ∃ ds, decodeRows [] ((s.tables i).ledger.selectDeliveries order cond) = .ok ds ∧ Q ds s1) :
    Does i (deliveriesWhere cond) Q s := by
  refine Does.bind (does_lease hs fun s1 hidle htables1 => Does.bind ?_)
  rw [← htables1] at h
  refine does_sql_idle (c := .selectDeliveries cond)
    (v := fun order => (s1.tables i).ledger.selectDeliveries order cond)
    (l := fun _ => (s1.tables i).ledger) hidle (fun order => ?_)
    fun order s2 hidle2 htables2 => ?_
  · rw [← hidle.ledger_eq]
    rfl
  · obtain ⟨ds, hds, hQ⟩ := h order s2 (.inl hidle2) htables2
    rw [hds]
    exact hQ

lemma does_expireDeliveries {nowMs : ℤ} {limit : ℕ} {Q : ℕ → Cluster ι → Prop}
    (hs : Alone i s)
    (h : ∀ order s1, Alone i s1 →
      s1.tables i = (s.tables i).expire order (nowMs.tdiv 1000) limit →
      Q ((s.tables i).ledger.selectExpiring order (nowMs.tdiv 1000) limit).length s1) :
    Does i (expireDeliveries nowMs limit) Q s := by
  refine Does.bind (does_lease hs fun s1 hidle htables1 => ?_)
  rw [← htables1] at h
  refine does_sql_idle (c := .expire (nowMs.tdiv 1000) limit)
    (l := fun order => ((s1.tables i).expire order (nowMs.tdiv 1000) limit).ledger) hidle
    (fun order => ?_) fun order s2 hidle2 htables2 => h order s2 (.inl hidle2) htables2
  rw [hidle.tables_eq]
  rfl

lemma does_deleteRows {c : Sql} {p : RowKey → DeliveryRow → Bool} {limit : ℕ}
    {f : ℕ → c.Value} {Q : c.Value → Cluster ι → Prop} (hs : Idle i s)
    (hexec : ∀ order, Database.exec i order c s.db =
      some (f (s.db.ledger.deleteRows order p limit).1,
        { s.db with ledger := (s.db.ledger.deleteRows order p limit).2 }))
    (h : ∀ order s1, Idle i s1 → s1.tables i = ((s.tables i).deleteRows order p limit).2 →
      Q (f ((s.tables i).deleteRows order p limit).1) s1) :
    Does i (sql c) Q s := by
  refine does_sql_idle (v := fun order => f ((s.tables i).deleteRows order p limit).1)
    (l := fun order => ((s.tables i).deleteRows order p limit).2.ledger) hs (fun order => ?_)
    fun order s2 hidle2 htables2 => h order s2 hidle2 htables2
  rw [hexec order, hs.ledger_eq]
  rfl

lemma does_cleanupDeliveries {ackedBeforeMs expiredBeforeMs : ℤ} {limit : ℕ}
    {Q : ℕ → Cluster ι → Prop} (hs : Alone i s)
    (h : ∀ order order' s1, Alone i s1 →
      s1.tables i = ((s.tables i).cleanup order order' ((ackedBeforeMs + 999).tdiv 1000)
        ((expiredBeforeMs + 999).tdiv 1000) limit).2 →
      Q ((s.tables i).cleanup order order' ((ackedBeforeMs + 999).tdiv 1000)
        ((expiredBeforeMs + 999).tdiv 1000) limit).1 s1) :
    Does i (cleanupDeliveries ackedBeforeMs expiredBeforeMs limit) Q s := by
  refine Does.bind (does_lease hs fun s1 hidle htables1 => Does.bind ?_)
  rw [← htables1] at h
  refine does_deleteRows (c := .deleteAcknowledged ((ackedBeforeMs + 999).tdiv 1000) limit)
    (f := fun n => n) hidle (fun order => rfl) fun order s2 hidle2 htables2 => Does.bind ?_
  refine does_deleteRows (c := .deleteExpired ((expiredBeforeMs + 999).tdiv 1000) limit)
    (f := fun n => n) hidle2 (fun order' => rfl) fun order' s3 hidle3 htables3 => ?_
  rw [htables2] at htables3 ⊢
  exact h order order' s3 (.inl hidle3) htables3

end Cluster

end MuduoChat
