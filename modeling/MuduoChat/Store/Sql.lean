import MuduoChat.Delivery.Port
import MuduoChat.Lib.Atomic

/-!
# The database of the MySQL store

The tables of reliable messaging with the columns that the store reads, and the statements
that it sends.  Every statement is atomic.  Isolation is that of `READ COMMITTED`: the writes
of an open transaction are kept apart and become visible when it commits, and a statement that
needs a row or a unique key on which another open transaction has written waits for the end of
that transaction.  Waiting is a statement that cannot be answered now.  The surroundings may
also let any statement fail with an error number; it then has no effect.
-/

namespace MuduoChat

open Std OrderedMap

/-! ### Columns and rows -/

/-- An `INT` column. -/
abbrev IntColumn := BitVec 32

/-- A 64-bit identifier as it is bound to an `INT` column. -/
def toColumn (id : ℕ) : IntColumn := BitVec.ofNat 32 id

/-- An `INT` column as it is read back into a 64-bit identifier. -/
def ofColumn (x : IntColumn) : ℕ := (x.signExtend 64).toNat

/-- What is read from a column is written back to it unchanged, even where it is not the
identifier that was written first. -/
@[simp] lemma toColumn_ofColumn (x : IntColumn) : toColumn (ofColumn x) = x := by
  apply BitVec.eq_of_toNat_eq
  have hx := x.isLt
  simp only [toColumn, ofColumn, BitVec.toNat_ofNat, BitVec.toNat_signExtend,
    BitVec.toNat_setWidth]
  split <;> omega

/-- The primary key of `MessageDelivery`: message and recipient. -/
abbrev RowKey := LexPair ℕ IntColumn

/-- A row of `MessageDelivery` without its key.  The columns of type `DATETIME` hold whole
seconds. -/
structure DeliveryRow where
  state : DeliveryState := .pending
  attemptCount : ℕ := 0
  nextAttemptAt : Option ℤ := none
  leaseOwner : Option String := none
  leaseUntil : Option ℤ := none
  lastSentAt : Option ℤ := none
  acknowledgedAt : Option ℤ := none
  expiresAt : Option ℤ := none
  deriving DecidableEq, Repr

/-- A row of `ChatMessage` without its key. -/
structure ChatMessageRow where
  conversationId : ℕ
  senderId : IntColumn
  clientMessageId : ClientMessageId
  sequence : ℕ
  content : String

/-- A key as its column compares it: the collation does not count blanks at the end. -/
def ClientMessageId.collated (c : ClientMessageId) : List Char := c.value.toList.rdropWhile (· = ' ')

/-- Two rows have the same value of a unique key. -/
def ChatMessageRow.clashes (row other : ChatMessageRow) : Bool :=
  (row.senderId = other.senderId ∧ row.clientMessageId.collated = other.clientMessageId.collated) ∨
    (row.conversationId = other.conversationId ∧ row.sequence = other.sequence)

/-- The tables.  `Conversation` is kept as its column `next_sequence`, and the two tables of
links by their unique keys.  Every event is of the type `MessageAccepted` and is kept under
its message; its payload is kept as the value that the text denotes. -/
structure Ledger where
  conversation : TreeMap ℕ ℕ := ∅
  directConversation : TreeMap (LexPair IntColumn IntColumn) ℕ := ∅
  groupConversation : TreeMap IntColumn ℕ := ∅
  chatMessage : TreeMap ℕ ChatMessageRow := ∅
  messageDelivery : TreeMap RowKey DeliveryRow := ∅
  outboxEvent : TreeMap ℕ Json := ∅

def Ledger.row (l : Ledger) (k : RowKey) : Option DeliveryRow := l.messageDelivery[k]?

/-! ### Transactions -/

/-- The writes of a transaction. -/
inductive Write where
  | conversation (id : ℕ)
  | direct (low high : IntColumn) (id : ℕ)
  | group (groupId : IntColumn) (id : ℕ)
  | nextSequence (id sequence : ℕ)
  | message (id : ℕ) (row : ChatMessageRow)
  | outbox (messageId : ℕ) (payload : Json)
  | delivery (key : RowKey) (expiresAt : Option ℤ)

/-- Apply a write to the tables.  An `INSERT` does not touch a row that is there. -/
def Ledger.apply (l : Ledger) : Write → Ledger
  | .conversation id => { l with conversation := l.conversation.insertIfNew id 0 }
  | .direct low high id =>
    { l with directConversation := l.directConversation.insertIfNew ⟨low, high⟩ id }
  | .group groupId id =>
    { l with groupConversation := l.groupConversation.insertIfNew groupId id }
  | .nextSequence id sequence => { l with conversation := l.conversation.insert id sequence }
  | .message id row => { l with chatMessage := l.chatMessage.insertIfNew id row }
  | .outbox messageId payload =>
    { l with outboxEvent := l.outboxEvent.insertIfNew messageId payload }
  | .delivery key expiresAt =>
    { l with messageDelivery := l.messageDelivery.insertIfNew key { expiresAt := expiresAt } }

/-- What a transaction can hold against the others: a row of `Conversation`, or a value of
one of the unique keys. -/
inductive Lock where
  | conversation (id : ℕ)
  | direct (low high : IntColumn)
  | group (groupId : IntColumn)
  | message (senderId : IntColumn) (collated : List Char)
  | delivery (key : RowKey)
  deriving DecidableEq

/-- An open transaction: what it has written, in order, and what it holds. -/
structure Transaction where
  writes : List Write := []
  locks : List Lock := []

/-- The database: the committed tables, the open transactions by their connections, and the
counters of the generated keys, which no rollback takes back. -/
structure Database (ι : Type) where
  ledger : Ledger := {}
  transactions : List (ι × Transaction) := []
  nextConversationId : ℕ := 1
  nextMessageId : ℕ := 1

namespace Database

variable {ι : Type} [DecidableEq ι]

/-- The open transaction of a connection. -/
def transaction (db : Database ι) (i : ι) : Option Transaction :=
  (db.transactions.find? fun t => t.1 = i).map Prod.snd

/-- The transactions of the other connections. -/
def others (db : Database ι) (i : ι) : List (ι × Transaction) :=
  db.transactions.filter fun t => t.1 ≠ i

/-- What a connection sees: the committed tables and its own writes. -/
def view (db : Database ι) (i : ι) : Ledger :=
  match db.transaction i with
  | some t => t.writes.foldl Ledger.apply db.ledger
  | none => db.ledger

/-- Another transaction holds what is asked for. -/
def blocked (db : Database ι) (i : ι) (l : Lock) : Bool :=
  (db.others i).any fun t => l ∈ t.2.locks

/-- Hold something until the end of the transaction. -/
def hold (db : Database ι) (i : ι) (l : Lock) : Database ι :=
  match db.transaction i with
  | some t => { db with transactions := (i, { t with locks := l :: t.locks }) :: db.others i }
  | none => db

/-- Write on a connection: for its transaction, or at once if there is none. -/
def write (db : Database ι) (i : ι) (w : Write) : Database ι :=
  match db.transaction i with
  | some t => { db with transactions := (i, { t with writes := t.writes ++ [w] }) :: db.others i }
  | none => { db with ledger := db.ledger.apply w }

/-- Begin a transaction. -/
def start (db : Database ι) (i : ι) : Database ι :=
  { db with transactions := (i, {}) :: db.others i }

/-- Make the writes of the transaction visible, and end it. -/
def commit (db : Database ι) (i : ι) : Database ι :=
  { db with ledger := db.view i, transactions := db.others i }

/-- Give up the transaction. -/
def rollback (db : Database ι) (i : ι) : Database ι :=
  { db with transactions := db.others i }

end Database

/-! ### Statements -/

/-- The conditions under which messages are looked up. -/
inductive MessageWhere where
  | key (senderId : IntColumn) (clientMessageId : ClientMessageId)
  | id (messageId : ℕ)

/-- The conditions under which deliveries are looked up.  The last one has a limit. -/
inductive DeliveryWhere where
  | recipient (recipientId : IntColumn)
  | message (messageId : ℕ)
  | due (nowSecs : ℤ) (limit : ℕ)

/-- A row of the join of `MessageDelivery` and `ChatMessage`. -/
structure SelectedDelivery where
  key : RowKey
  row : DeliveryRow
  conversationId : ℕ
  sequence : ℕ

/-- The statements, in the order in which the source has them.  The inserts that can meet a
duplicate key say whether they did. -/
inductive Sql where
  | acquire
  | setIsolation
  | startTransaction
  | rollback
  | commit
  | selectDirectConversation (low high : IntColumn)
  | selectGroupConversation (groupId : IntColumn)
  | insertConversation
  | insertDirectConversation (id : ℕ) (low high : IntColumn)
  | insertGroupConversation (id : ℕ) (groupId : IntColumn)
  | lockConversation (id : ℕ)
  | updateConversation (id sequence : ℕ)
  | insertChatMessage (row : ChatMessageRow)
  | insertOutboxEvent (messageId : ℕ) (payload : Json)
  | insertMessageDelivery (key : RowKey) (expiresAt : Option ℤ)
  | updateMessageDelivery (key : RowKey) (row : DeliveryRow)
  | selectMessage (inTransaction : Bool) (cond : MessageWhere)
  | selectDeliveries (cond : DeliveryWhere)
  | selectExpiring (nowSecs : ℤ) (limit : ℕ)
  | expire (nowSecs : ℤ) (limit : ℕ)
  | deleteAcknowledged (beforeSecs : ℤ) (limit : ℕ)
  | deleteExpired (beforeSecs : ℤ) (limit : ℕ)

/-- What the statements answer.  The statements that control a connection answer whether they
worked, and a commit that did not answers its error number. -/
def Sql.Value : Sql → Type
  | .acquire => Bool
  | .setIsolation => Bool
  | .startTransaction => Unit
  | .rollback => Bool
  | .commit => Option ℕ
  | .selectDirectConversation .. => Option ℕ
  | .selectGroupConversation .. => Option ℕ
  | .insertConversation => ℕ
  | .insertDirectConversation .. => Bool
  | .insertGroupConversation .. => Bool
  | .lockConversation .. => Option ℕ
  | .updateConversation .. => Unit
  | .insertChatMessage .. => Option ℕ
  | .insertOutboxEvent .. => Unit
  | .insertMessageDelivery .. => Bool
  | .updateMessageDelivery .. => Unit
  | .selectMessage .. => Option (ℕ × ChatMessageRow × Json)
  | .selectDeliveries .. => List SelectedDelivery
  | .selectExpiring .. => List (RowKey × DeliveryRow)
  | .expire .. => ℕ
  | .deleteAcknowledged .. => ℕ
  | .deleteExpired .. => ℕ

/-- What the surroundings choose at a statement: the error with which it fails, or zero, and
the order in which rows come back. -/
structure SqlEnv where
  errno : ℕ := 0
  order : List RowKey := []

/-- The classes of the error numbers. -/
def mapStoreError (errno : ℕ) : StoreErrorKind :=
  if errno ∈ [1205, 1213, 2006, 2013, 1053, 2003] then .dependencyBusy
  else if errno = 1452 then .notFound
  else .storage

namespace Ledger

/-- The rows with a property, in the order that the surroundings choose. -/
def rowsWhere (l : Ledger) (order : List RowKey) (p : RowKey → DeliveryRow → Bool) :
    List (RowKey × DeliveryRow) :=
  let rows := l.messageDelivery.toList.filter fun e => p e.1 e.2
  if order.Perm (rows.map Prod.fst) then
    order.filterMap fun k => (l.row k).map fun d => (k, d)
  else
    rows

/-- The condition of a query for deliveries. -/
def meets : DeliveryWhere → RowKey → DeliveryRow → Bool
  | .recipient recipientId, k, _ => k.second = recipientId
  | .message messageId, k, _ => k.first = messageId
  | .due nowSecs _, _, d =>
    d.state = .inFlight && d.nextAttemptAt.any fun t => decide (t ≤ nowSecs)

def limited {α : Type} : DeliveryWhere → List α → List α
  | .due _ limit, rows => rows.take limit
  | _, rows => rows

/-- The join of a delivery with its message. -/
def joined (l : Ledger) (e : RowKey × DeliveryRow) : Option SelectedDelivery :=
  l.chatMessage[e.1.first]?.map fun m => ⟨e.1, e.2, m.conversationId, m.sequence⟩

def selectDeliveries (l : Ledger) (order : List RowKey) (cond : DeliveryWhere) :
    List SelectedDelivery :=
  limited cond ((l.rowsWhere order (meets cond)).filterMap l.joined)

/-- The message that meets a condition, with the payload of its event. -/
def selectMessage (l : Ledger) : MessageWhere → Option (ℕ × ChatMessageRow × Json)
  | .id messageId => do
      let row ← l.chatMessage[messageId]?
      let payload ← l.outboxEvent[messageId]?
      pure (messageId, row, payload)
  | .key senderId clientMessageId => do
      let (messageId, row) ← l.chatMessage.toList.find? fun m =>
        m.2.senderId = senderId ∧ m.2.clientMessageId.collated = clientMessageId.collated
      let payload ← l.outboxEvent[messageId]?
      pure (messageId, row, payload)

/-- The row is not terminal and its retention has passed. -/
def expiring (nowSecs : ℤ) (_ : RowKey) (d : DeliveryRow) : Bool :=
  !d.state.terminal && d.expiresAt.any fun t => decide (t < nowSecs)

/-- The rows that are to expire, by message and within the limit. -/
def selectExpiring (l : Ledger) (order : List RowKey) (nowSecs : ℤ) (limit : ℕ) :
    List (RowKey × DeliveryRow) :=
  ((l.rowsWhere order (expiring nowSecs)).insertionSort fun a b => a.1.first ≤ b.1.first).take
    limit

def expired (d : DeliveryRow) : DeliveryRow :=
  { d with
    state := .expired, leaseOwner := none, leaseUntil := none, nextAttemptAt := none
    lastSentAt := none }

/-- The row is in a state, and the time that counts there has passed. -/
def outlived (state : DeliveryState) (column : DeliveryRow → Option ℤ) (beforeSecs : ℤ)
    (_ : RowKey) (d : DeliveryRow) : Bool :=
  d.state = state && (column d).any fun t => decide (t < beforeSecs)

/-- Remove rows with a property, within the limit.  The answer is how many. -/
def deleteRows (l : Ledger) (order : List RowKey) (p : RowKey → DeliveryRow → Bool)
    (limit : ℕ) : ℕ × Ledger :=
  let keys := ((l.rowsWhere order p).take limit).map Prod.fst
  (keys.length, { l with messageDelivery := eraseAll l.messageDelivery keys })

end Ledger

namespace Database

variable {ι : Type} [DecidableEq ι]

/-- An insert under a unique key: wait for others, find a duplicate, or write and hold the
key. -/
def insertUnique (db : Database ι) (i : ι) (lock : Lock) (duplicate : Bool) (w : Write) :
    Option (Bool × Database ι) :=
  if db.blocked i lock then none
  else if duplicate then some (true, db)
  else some (false, (db.hold i lock).write i w)

/-- The effect of a statement that does not fail. -/
def exec (i : ι) (order : List RowKey) :
    (c : Sql) → Database ι → Option (c.Value × Database ι)
  | .acquire, db => some (true, db)
  | .setIsolation, db => some (true, db)
  | .startTransaction, db => some ((), db.start i)
  | .rollback, db => some (true, db.rollback i)
  | .commit, db => some (none, db.commit i)
  | .selectDirectConversation low high, db =>
    some ((db.view i).directConversation[(⟨low, high⟩ : LexPair IntColumn IntColumn)]?, db)
  | .selectGroupConversation groupId, db => some ((db.view i).groupConversation[groupId]?, db)
  | .insertConversation, db =>
    some (db.nextConversationId,
      { db with nextConversationId := db.nextConversationId + 1 }.write i
        (.conversation db.nextConversationId))
  | .insertDirectConversation id low high, db =>
    db.insertUnique i (.direct low high)
      ((db.view i).directConversation.contains ⟨low, high⟩) (.direct low high id)
  | .insertGroupConversation id groupId, db =>
    db.insertUnique i (.group groupId) ((db.view i).groupConversation.contains groupId)
      (.group groupId id)
  | .lockConversation id, db =>
    if db.blocked i (.conversation id) then none
    else some ((db.view i).conversation[id]?, db.hold i (.conversation id))
  | .updateConversation id sequence, db =>
    if db.blocked i (.conversation id) then none
    else some ((), (db.hold i (.conversation id)).write i (.nextSequence id sequence))
  | .insertChatMessage row, db =>
    -- a generated key is used up even if the row is not written
    let taken := { db with nextMessageId := db.nextMessageId + 1 }
    let duplicate := (db.view i).chatMessage.toList.any fun m => m.2.clashes row
    (taken.insertUnique i (.message row.senderId row.clientMessageId.collated) duplicate
      (.message db.nextMessageId row)).map fun (duplicate, db') =>
        (if duplicate then none else some db.nextMessageId, db')
  | .insertOutboxEvent messageId payload, db => some ((), db.write i (.outbox messageId payload))
  | .insertMessageDelivery key expiresAt, db =>
    db.insertUnique i (.delivery key) ((db.view i).row key).isSome (.delivery key expiresAt)
  | .updateMessageDelivery key row, db =>
    if db.blocked i (.delivery key) then none
    else some ((),
      { db with
        ledger :=
          { db.ledger with
            messageDelivery :=
              if (db.ledger.row key).isSome then db.ledger.messageDelivery.insert key row
              else db.ledger.messageDelivery } })
  | .selectMessage inTransaction cond, db =>
    some ((if inTransaction then db.view i else db.ledger).selectMessage cond, db)
  | .selectDeliveries cond, db => some (db.ledger.selectDeliveries order cond, db)
  | .selectExpiring nowSecs limit, db => some (db.ledger.selectExpiring order nowSecs limit, db)
  | .expire nowSecs limit, db =>
    let due := db.ledger.selectExpiring order nowSecs limit
    some (due.length,
      { db with
        ledger :=
          { db.ledger with
            messageDelivery := rewriteAll Ledger.expired db.ledger.messageDelivery due } })
  | .deleteAcknowledged beforeSecs limit, db =>
    let (removed, l) := db.ledger.deleteRows order
      (Ledger.outlived .acknowledged DeliveryRow.acknowledgedAt beforeSecs) limit
    some (removed, { db with ledger := l })
  | .deleteExpired beforeSecs limit, db =>
    let (removed, l) := db.ledger.deleteRows order
      (Ledger.outlived .expired DeliveryRow.expiresAt beforeSecs) limit
    some (removed, { db with ledger := l })

/-- How a statement that fails is answered.  A rollback that fails has lost its connection,
and the server ends the transaction. -/
def failure (i : ι) (errno : ℕ) :
    (c : Sql) → Database ι → Except StoreErrorKind c.Value × Database ι
  | .acquire, db => (.ok false, db)
  | .setIsolation, db => (.ok false, db)
  | .commit, db => (.ok (some errno), db)
  | .rollback, db => (.ok false, db.rollback i)
  | _, db => (.error (mapStoreError errno), db)

/-- How the statements of a connection are answered. -/
def handle (i : ι) (c : Sql) (ω : SqlEnv) (db : Database ι) :
    Option (Except StoreErrorKind c.Value × Database ι) :=
  if ω.errno = 0 then (exec i ω.order c db).map fun (v, db') => (.ok v, db')
  else some (failure i ω.errno c db)

end Database

/-! ### What the statements do to a delivery row -/

namespace Ledger

def stateAt (l : Ledger) (k : RowKey) : Option DeliveryState := (l.row k).map DeliveryRow.state

/-- The rows that are there stay as they are, and the new ones are pending. -/
structure Grows (l l' : Ledger) : Prop where
  kept : ∀ k d, l.row k = some d → l'.row k = some d
  added : ∀ k d, l'.row k = some d → l.row k = some d ∨ d.state = .pending

lemma Grows.of_eq {l l' : Ledger} (h : l'.messageDelivery = l.messageDelivery) : Grows l l' := by
  have hrow : ∀ k, l'.row k = l.row k := fun k => by rw [row, row, h]
  exact ⟨fun k d hd => by rw [hrow, hd], fun k d hd => .inl (by rw [← hrow, hd])⟩

lemma Grows.trans {l1 l2 l3 : Ledger} (h : Grows l1 l2) (h' : Grows l2 l3) : Grows l1 l3 := by
  refine ⟨fun k d hd => h'.kept k d (h.kept k d hd), fun k d hd => ?_⟩
  rcases h'.added k d hd with h2 | hp
  · exact h.added k d h2
  · exact .inr hp

lemma grows_apply (l : Ledger) (w : Write) : Grows l (l.apply w) := by
  cases w with
  | delivery key expiresAt =>
    have hrow : ∀ k, (l.apply (.delivery key expiresAt)).row k =
        if key = k ∧ l.row key = none then some { expiresAt := expiresAt } else l.row k :=
      fun k => getElem?_insertIfNew _ _ _ _
    refine ⟨fun k d hd => ?_, fun k d hd => ?_⟩
    · rw [hrow, if_neg]
      · exact hd
      · rintro ⟨rfl, hnone⟩
        exact absurd (hnone.symm.trans hd) (by simp)
    · rw [hrow] at hd
      split at hd
      · exact .inr (by rw [← Option.some.inj hd])
      · exact .inl hd
  | conversation | direct | group | nextSequence | message | outbox => exact Grows.of_eq rfl

/-- No row becomes acknowledged, and an acknowledged row stays so unless it is removed. -/
structure RowsKept (l l' : Ledger) : Prop where
  origin : ∀ k, l'.stateAt k = some .acknowledged → l.stateAt k = some .acknowledged
  kept : ∀ k, l.stateAt k = some .acknowledged →
    l'.stateAt k = some .acknowledged ∨ l'.stateAt k = none

lemma stateAt_eq_some {l : Ledger} {k : RowKey} {st : DeliveryState} :
    l.stateAt k = some st ↔ ∃ d, l.row k = some d ∧ d.state = st := by
  simp [stateAt]

lemma Grows.acknowledged_iff {l l' : Ledger} (h : Grows l l') (k : RowKey) :
    l'.stateAt k = some .acknowledged ↔ l.stateAt k = some .acknowledged := by
  simp only [stateAt_eq_some]
  constructor
  · rintro ⟨d, hd, hst⟩
    rcases h.added k d hd with hold | hp
    · exact ⟨d, hold, hst⟩
    · exact absurd (hp.symm.trans hst) (by decide)
  · rintro ⟨d, hd, hst⟩
    exact ⟨d, h.kept k d hd, hst⟩

lemma RowsKept.of_grows {l l' : Ledger} (h : Grows l l') : RowsKept l l' :=
  ⟨fun k hk => (h.acknowledged_iff k).1 hk, fun k hk => .inl ((h.acknowledged_iff k).2 hk)⟩

lemma Grows.rowsKept {l1 l2 l3 : Ledger} (h : Grows l1 l2) (h' : RowsKept l2 l3) :
    RowsKept l1 l3 :=
  ⟨fun k hk => (h.acknowledged_iff k).1 (h'.origin k hk),
    fun k hk => h'.kept k ((h.acknowledged_iff k).2 hk)⟩

/-- Every row that is left is as it was. -/
def Shrinks (l l' : Ledger) : Prop := ∀ k, l'.row k = l.row k ∨ l'.row k = none

lemma Shrinks.trans {l1 l2 l3 : Ledger} (h : Shrinks l1 l2) (h' : Shrinks l2 l3) :
    Shrinks l1 l3 := by
  intro k
  rcases h' k with hk | hk
  · rw [hk]
    exact h k
  · exact .inr hk

lemma Shrinks.rowsKept {l l' : Ledger} (h : Shrinks l l') : RowsKept l l' := by
  refine ⟨fun k hk => ?_, fun k hk => ?_⟩
  · rcases h k with heq | hnone
    · rwa [stateAt, heq] at hk
    · simp [stateAt, hnone] at hk
  · rcases h k with heq | hnone
    · exact .inl (by rwa [stateAt, heq])
    · exact .inr (by simp [stateAt, hnone])

lemma shrinks_deleteRows (l : Ledger) (order : List RowKey) (p : RowKey → DeliveryRow → Bool)
    (limit : ℕ) : Shrinks l (l.deleteRows order p limit).2 := by
  intro k
  have h : (l.deleteRows order p limit).2.row k =
      if k ∈ ((l.rowsWhere order p).take limit).map Prod.fst then none else l.row k :=
    getElem?_eraseAll _ _ _
  rw [h]
  split
  · exact .inr rfl
  · exact .inl rfl

/-! ### What the queries return -/

variable {l : Ledger} {order : List RowKey}

lemma mem_rowsWhere {p : RowKey → DeliveryRow → Bool} {e : RowKey × DeliveryRow}
    (h : e ∈ l.rowsWhere order p) : l.row e.1 = some e.2 ∧ p e.1 e.2 = true := by
  simp only [rowsWhere] at h
  split at h
  · rename_i hperm
    simp only [List.mem_filterMap, Option.map_eq_some_iff] at h
    obtain ⟨k, hk, d, hd, rfl⟩ := h
    -- the key stands in the result of the condition, under the same row
    obtain ⟨⟨k, d'⟩, hmem, rfl⟩ := List.mem_map.1 (hperm.subset hk)
    obtain ⟨hmem, hp⟩ := List.mem_filter.1 hmem
    have hd' : l.row k = some d' := mem_toList.1 hmem
    obtain rfl : d = d' := Option.some.inj (hd.symm.trans hd')
    exact ⟨hd, hp⟩
  · obtain ⟨hmem, hp⟩ := List.mem_filter.1 h
    exact ⟨mem_toList.1 hmem, hp⟩

lemma mem_rowsWhere_iff {p : RowKey → DeliveryRow → Bool} {k : RowKey} {r : DeliveryRow} :
    (k, r) ∈ l.rowsWhere order p ↔ l.row k = some r ∧ p k r = true := by
  refine ⟨fun h => mem_rowsWhere h, fun ⟨hr, hp⟩ => ?_⟩
  have hmem : (k, r) ∈ l.messageDelivery.toList.filter fun e => p e.1 e.2 :=
    List.mem_filter.2 ⟨mem_toList.2 hr, hp⟩
  simp only [rowsWhere]
  split
  · rename_i hperm
    refine List.mem_filterMap.2 ⟨k, hperm.symm.subset (List.mem_map.2 ⟨_, hmem, rfl⟩), ?_⟩
    simp [hr]
  · exact hmem

lemma nodup_rowsWhere (l : Ledger) (order : List RowKey) (p : RowKey → DeliveryRow → Bool) :
    ((l.rowsWhere order p).map Prod.fst).Nodup := by
  have hrows : ((l.messageDelivery.toList.filter fun e => p e.1 e.2).map Prod.fst).Nodup :=
    (nodup_keys_toList _).sublist (List.filter_sublist.map Prod.fst)
  simp only [rowsWhere]
  split
  · rename_i hperm
    have horder : order.Nodup := hperm.nodup_iff.2 hrows
    refine horder.sublist ?_
    rw [List.map_filterMap]
    have hsub : (order.filterMap fun k => Option.map Prod.fst ((l.row k).map fun d => (k, d))) =
        order.filter fun k => (l.row k).isSome := by
      rw [← List.filterMap_eq_filter]
      refine List.filterMap_congr fun k _ => ?_
      cases hk : l.row k <;> simp [Option.guard, hk]
    rw [hsub]
    exact List.filter_sublist
  · exact hrows

lemma row_of_mem_selectDeliveries {cond : DeliveryWhere} {s : SelectedDelivery}
    (h : s ∈ l.selectDeliveries order cond) :
    l.row s.key = some s.row ∧ meets cond s.key s.row = true := by
  have hjoin : s ∈ (l.rowsWhere order (meets cond)).filterMap l.joined := by
    cases cond with
    | due => exact List.mem_of_mem_take h
    | recipient | message => exact h
  simp only [List.mem_filterMap, joined, Option.map_eq_some_iff] at hjoin
  obtain ⟨e, he, m, -, rfl⟩ := hjoin
  exact mem_rowsWhere he

lemma nodup_selectDeliveries (l : Ledger) (order : List RowKey) (cond : DeliveryWhere) :
    ((l.selectDeliveries order cond).map SelectedDelivery.key).Nodup := by
  have hjoin : (((l.rowsWhere order (meets cond)).filterMap l.joined).map
      SelectedDelivery.key).Nodup := by
    refine (nodup_rowsWhere l order (meets cond)).sublist ?_
    induction l.rowsWhere order (meets cond) with
    | nil => exact List.Sublist.refl _
    | cons e rows ih =>
      cases hm : l.chatMessage[e.1.first]? with
      | none =>
        have : l.joined e = none := by simp [joined, hm]
        rw [List.filterMap_cons_none this, List.map_cons]
        exact ih.cons _
      | some m =>
        have : l.joined e = some ⟨e.1, e.2, m.conversationId, m.sequence⟩ := by
          simp [joined, hm]
        rw [List.filterMap_cons_some this, List.map_cons, List.map_cons]
        exact ih.cons_cons _
  cases cond with
  | due nowSecs limit => exact hjoin.sublist ((List.take_sublist _ _).map _)
  | recipient | message => exact hjoin

lemma mem_selectExpiring {nowSecs : ℤ} {limit : ℕ} {e : RowKey × DeliveryRow}
    (h : e ∈ l.selectExpiring order nowSecs limit) :
    l.row e.1 = some e.2 ∧ e.2.state.terminal = false := by
  have hsort := List.mem_of_mem_take h
  rw [List.mem_insertionSort] at hsort
  obtain ⟨hrow, hp⟩ := mem_rowsWhere hsort
  simp only [expiring, Bool.and_eq_true, Bool.not_eq_true'] at hp
  exact ⟨hrow, hp.1⟩

lemma rowsKept_expire (l : Ledger) (order : List RowKey) (nowSecs : ℤ) (limit : ℕ) :
    RowsKept l { l with
      messageDelivery :=
        rewriteAll expired l.messageDelivery (l.selectExpiring order nowSecs limit) } := by
  have hcases := fun k => getElem?_rewriteAll_cases expired l.messageDelivery
    (l.selectExpiring order nowSecs limit) k
  refine ⟨fun k hk => ?_, fun k hk => ?_⟩
  · rcases hcases k with h | ⟨d, -, h⟩
    · rwa [stateAt, row, h] at hk
    · simp [stateAt, row, h, expired] at hk
  · rcases hcases k with h | ⟨d, hmem, -⟩
    · exact .inl (by rwa [stateAt, row, h])
    · obtain ⟨hrow, hopen⟩ := mem_selectExpiring hmem
      obtain ⟨d', hd', hst⟩ := stateAt_eq_some.1 hk
      obtain rfl : d = d' := Option.some.inj (hrow.symm.trans hd')
      rw [hst] at hopen
      cases hopen

end Ledger

/-- The statements that change or remove delivery rows that are there. -/
def Sql.altersRows : Sql → Bool
  | .updateMessageDelivery .. | .expire .. | .deleteAcknowledged .. | .deleteExpired .. => true
  | _ => false

namespace Database

variable {ι : Type} [DecidableEq ι] {db db' : Database ι} {i : ι}

@[simp] lemma hold_ledger (db : Database ι) (i : ι) (l : Lock) :
    (db.hold i l).ledger = db.ledger := by
  unfold hold
  split <;> rfl

lemma grows_view (db : Database ι) (i : ι) : db.ledger.Grows (db.view i) := by
  unfold view
  split
  · rename_i t _
    -- the writes of the transaction are applied one after the other
    generalize db.ledger = l
    induction t.writes generalizing l with
    | nil => exact .of_eq rfl
    | cons w ws ih => exact (l.grows_apply w).trans (ih (l.apply w))
  · exact .of_eq rfl

lemma grows_write (db : Database ι) (i : ι) (w : Write) :
    db.ledger.Grows (db.write i w).ledger := by
  unfold write
  split
  · exact .of_eq rfl
  · exact db.ledger.grows_apply w

lemma grows_insertUnique {d : Database ι} {lock : Lock} {duplicate b : Bool} {w : Write}
    (h : d.insertUnique i lock duplicate w = some (b, db')) : d.ledger.Grows db'.ledger := by
  unfold insertUnique at h
  split at h
  · cases h
  · split at h
    · cases h
      exact .of_eq rfl
    · cases h
      simpa using grows_write (d.hold i lock) i w

/-- The other statements leave the rows alone, or make the inserts of a transaction
visible. -/
lemma grows_exec {order : List RowKey} {c : Sql} {v : c.Value} (hc : c.altersRows = false)
    (h : exec i order c db = some (v, db')) : db.ledger.Grows db'.ledger := by
  cases c with
  | updateMessageDelivery | expire | deleteAcknowledged | deleteExpired => cases hc
  | commit =>
    cases h
    exact grows_view db i
  | insertConversation =>
    cases h
    exact grows_write { db with nextConversationId := db.nextConversationId + 1 } i _
  | insertDirectConversation | insertGroupConversation | insertMessageDelivery =>
    exact grows_insertUnique h
  | insertChatMessage row =>
    simp only [exec, Option.map_eq_some_iff] at h
    obtain ⟨⟨b, db1⟩, hb, heq⟩ := h
    cases heq
    exact grows_insertUnique (d := { db with nextMessageId := db.nextMessageId + 1 }) hb
  | insertOutboxEvent =>
    cases h
    exact grows_write _ i _
  | lockConversation id =>
    simp only [exec] at h
    split at h
    · cases h
    · cases h
      exact .of_eq (by rw [hold_ledger])
  | updateConversation id sequence =>
    simp only [exec] at h
    split at h
    · cases h
    · cases h
      simpa using grows_write (db.hold i (.conversation id)) i (.nextSequence id sequence)
  | acquire | setIsolation | startTransaction | rollback | selectDirectConversation |
    selectGroupConversation | selectMessage | selectDeliveries | selectExpiring =>
      cases h
      exact .of_eq rfl

lemma failure_ledger (i : ι) (errno : ℕ) (c : Sql) (db : Database ι) :
    (failure i errno c db).2.ledger = db.ledger := by
  cases c <;> rfl

/-- **Inversion of an answer.**  The statement was executed, or it failed and changed no
table. -/
lemma handle_cases {c : Sql} {ω : SqlEnv} {r : Except StoreErrorKind c.Value}
    (h : handle i c ω db = some (r, db')) :
    (∃ v, r = .ok v ∧ exec i ω.order c db = some (v, db')) ∨
      ω.errno ≠ 0 ∧ (r, db') = failure i ω.errno c db := by
  unfold handle at h
  split at h
  · simp only [Option.map_eq_some_iff] at h
    obtain ⟨⟨v, db1⟩, hexec, heq⟩ := h
    cases heq
    exact .inl ⟨v, rfl, hexec⟩
  · rename_i herrno
    exact .inr ⟨herrno, (Option.some.inj h).symm⟩

lemma grows_handle {c : Sql} {ω : SqlEnv} {r : Except StoreErrorKind c.Value}
    (hc : c.altersRows = false) (h : handle i c ω db = some (r, db')) :
    db.ledger.Grows db'.ledger := by
  rcases handle_cases h with ⟨v, -, hexec⟩ | ⟨-, hfail⟩
  · exact grows_exec hc hexec
  · have hdb : db' = (failure i ω.errno c db).2 := congrArg Prod.snd hfail
    rw [hdb]
    exact .of_eq (by rw [failure_ledger])

end Database

end MuduoChat
