import MuduoChat.Lib.OrderedMap

/-!
# Domain types

The value types of reliable messaging: identifiers, sessions, client message ids, commands,
accepted messages, deliveries and outbox events.  Identifiers and counters are natural
numbers and times are integers in milliseconds; the machine widths are made explicit where
a conversion can lose something.
-/

namespace MuduoChat

open Std

/-! ### Identifiers -/

/-- The kinds of identifiers.  Each kind is a type of its own. -/
inductive IdKind where
  | user
  | group
  | message
  | conversation
  | sequence
  deriving DecidableEq, Repr

/-- An identifier of a given kind. -/
@[ext] structure Id (k : IdKind) where
  value : ℕ := 0
  deriving DecidableEq, Repr

instance {k : IdKind} : Inhabited (Id k) := ⟨{}⟩

/-- Identifiers are ordered by their values. -/
instance {k : IdKind} : Ord (Id k) := ⟨compareOn Id.value⟩

instance {k : IdKind} : TransOrd (Id k) := inferInstanceAs (TransCmp (compareOn Id.value))

instance {k : IdKind} : LawfulEqOrd (Id k) :=
  lawfulEqCmp_compareOn fun _ _ h => Id.ext h

abbrev UserId := Id .user

abbrev GroupId := Id .group

abbrev MessageId := Id .message

abbrev ConversationId := Id .conversation

abbrev ConversationSequence := Id .sequence

/-- A session of a user.  The generation tells the sessions of one user apart. -/
@[ext] structure SessionIdentity where
  userId : UserId := {}
  generation : ℕ := 0
  deriving DecidableEq, Repr, Inhabited

/-- Sessions are ordered by user and then by generation. -/
instance : Ord SessionIdentity :=
  ⟨compareLex (compareOn SessionIdentity.userId) (compareOn SessionIdentity.generation)⟩

instance : TransOrd SessionIdentity :=
  inferInstanceAs (TransCmp
    (compareLex (compareOn SessionIdentity.userId) (compareOn SessionIdentity.generation)))

instance : LawfulEqOrd SessionIdentity :=
  lawfulEqCmp_compareLex fun _ _ hu hg => SessionIdentity.ext hu hg

/-! ### Client message ids -/

/-- A key names the legacy mode by its first seven bytes. -/
def isLegacyClientMessageId (value : String) : Bool :=
  value.toList.take 7 = "legacy:".toList

/-- Printable ASCII of length 1 to 64. -/
def ClientMessageId.isValid (value : String) : Bool :=
  !value.isEmpty && decide (value.utf8ByteSize ≤ 64) &&
    value.toList.all fun c => 0x20 ≤ c.toNat && c.toNat ≤ 0x7E

/-- The identifier a sender gives a message so that a repeated command is recognised.  The
constructor of the source throws on an invalid text, so an invalid one does not exist. -/
@[ext] structure ClientMessageId where
  value : String
  valid : ClientMessageId.isValid value = true
  deriving DecidableEq

/-- The text of the exception that the constructor throws. -/
def ClientMessageId.invalidText : String :=
  "ClientMessageId must be printable ASCII, length 1..64"

/-- The constructor of client message ids. -/
def ClientMessageId.ofString (value : String) : Except String ClientMessageId :=
  if h : ClientMessageId.isValid value = true then .ok ⟨value, h⟩
  else .error ClientMessageId.invalidText

lemma ClientMessageId.ofString_value (c : ClientMessageId) :
    ClientMessageId.ofString c.value = .ok c := by
  simp [ClientMessageId.ofString, c.valid]

/-! ### Commands and messages -/

inductive CommandKind where
  | direct
  | group
  deriving DecidableEq, Repr

lemma ClientMessageId.valid_zero : ClientMessageId.isValid "0" = true := by decide

/-- A command to send a message.  A group command carries the members of the group as they
were when the command was built. -/
structure SendMessageCommand where
  clientMessageId : ClientMessageId := ⟨"0", ClientMessageId.valid_zero⟩
  kind : CommandKind := .direct
  directRecipient : UserId := {}
  groupId : GroupId := {}
  members : List UserId := []
  content : String := ""
  deriving DecidableEq

/-- Those for whom a command creates deliveries. -/
def recipientsFor (cmd : SendMessageCommand) : List UserId :=
  match cmd.kind with
  | .direct => [cmd.directRecipient]
  | .group => cmd.members

structure Message where
  id : MessageId := {}
  conversationId : ConversationId := {}
  sequence : ConversationSequence := {}
  senderId : UserId := {}
  command : SendMessageCommand := {}
  acceptedAtMs : ℤ := 0
  deriving DecidableEq

/-- Whether two commands under one key carry the same intent. -/
def samePayload (a b : SendMessageCommand) : Bool :=
  if a.kind ≠ b.kind ∨ a.content ≠ b.content ∨ a.clientMessageId ≠ b.clientMessageId then
    false
  else
    match a.kind with
    | .direct => decide (a.directRecipient = b.directRecipient)
    | .group => decide (a.groupId = b.groupId ∧ a.members = b.members)

lemma samePayload_self (a : SendMessageCommand) : samePayload a a = true := by
  cases h : a.kind <;> simp [samePayload, h]

/-- The ways in which a command can be refused. -/
inductive AcceptError where
  | dependencyBusy
  | idempotencyConflict
  | tooManyRecipients
  | notConversationMember
  | notFound
  | invalidClientMessageId
  deriving DecidableEq, Repr

/-- The answer to a command.  The error counts only when `ok` is false. -/
structure AcceptOutcome where
  ok : Bool := false
  duplicate : Bool := false
  messageId : MessageId := {}
  conversationId : ConversationId := {}
  sequence : ConversationSequence := {}
  error : AcceptError := .dependencyBusy
  deriving DecidableEq, Repr

inductive AckResult where
  | acknowledged
  | idempotent
  | notRecipient
  | notFound
  deriving DecidableEq, Repr

/-! ### Deliveries -/

inductive DeliveryState where
  | pending
  | inFlight
  | acknowledged
  | expired
  deriving DecidableEq, Repr

/-- The states in which nothing is owed to the recipient any more. -/
def DeliveryState.terminal : DeliveryState → Bool
  | .acknowledged | .expired => true
  | .pending | .inFlight => false

@[simp] lemma DeliveryState.terminal_acknowledged : DeliveryState.acknowledged.terminal = true :=
  rfl

@[simp] lemma DeliveryState.terminal_expired : DeliveryState.expired.terminal = true := rfl

@[simp] lemma DeliveryState.terminal_pending : DeliveryState.pending.terminal = false := rfl

@[simp] lemma DeliveryState.terminal_inFlight : DeliveryState.inFlight.terminal = false := rfl

/-- What is owed to one recipient of one accepted message.  The sequence is not part of the
stored row: the store fills it in from the message when it returns rows. -/
structure Delivery where
  messageId : MessageId := {}
  conversationId : ConversationId := {}
  sequence : ConversationSequence := {}
  recipient : UserId := {}
  state : DeliveryState := .pending
  leaseOwner : SessionIdentity := {}
  leaseBootId : ℕ := 0
  leaseUntilMs : ℤ := 0
  attemptCount : ℕ := 0
  acknowledgedAtMs : ℤ := 0
  expiresAtMs : ℤ := 0
  lastSentAtMs : ℤ := 0
  nextAttemptAtMs : ℤ := 0
  deriving DecidableEq, Repr

/-- One attempt to hand a message to a session of its recipient. -/
structure DeliveryAttempt where
  messageId : MessageId
  conversationId : ConversationId
  sequence : ConversationSequence
  senderId : UserId
  recipient : UserId
  kind : CommandKind
  directRecipient : UserId
  groupId : GroupId
  content : String
  attemptNumber : ℕ
  deriving DecidableEq, Repr

/-- What a sink answers to an attempt. -/
inductive DeliverDisposition where
  | accepted
  | paused
  | closed
  deriving DecidableEq, Repr

/-- The event that a commit leaves for the relay. -/
structure OutboxEvent where
  id : ℕ := 0
  aggregateMessageId : MessageId := {}
  eventType : String := ""
  payload : String := ""
  availableAtMs : ℤ := 0
  leaseOwner : String := ""
  leaseUntilMs : ℤ := 0
  attemptCount : ℕ := 0
  processedAtMs : ℤ := 0
  deriving DecidableEq, Repr

/-- A record of the event stream that could not be handled. -/
structure DeadLetterRecord where
  topic : String := ""
  partitionId : ℤ := 0
  kafkaOffset : ℤ := 0
  messageId : ℕ := 0
  conversationId : ℕ := 0
  sequence : ℕ := 0
  eventType : String := ""
  reason : String := ""
  rawValue : String := ""
  deriving DecidableEq, Repr

end MuduoChat
