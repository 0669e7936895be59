import MuduoChat.Delivery.Messaging

/-!
# Chat commands

The path of a chat command from its JSON to reliable messaging: parsing, the checks that are
made before a command is accepted, the choice of its key, and the error numbers of the
protocol.
-/

namespace MuduoChat

open Std Code

/-! ### Error numbers -/

def errnoNotConversationMember : ℕ := 101

def errnoTooManyRecipients : ℕ := 102

def errnoIdempotencyConflict : ℕ := 103

def errnoDependencyBusy : ℕ := 104

def errnoContentTooLong : ℕ := 105

def errnoNotFound : ℕ := 106

def errnoInvalidClientMessageId : ℕ := 107

/-- The error number of a refusal. -/
def acceptErrorToErrno : AcceptError → ℕ
  | .notConversationMember => errnoNotConversationMember
  | .tooManyRecipients => errnoTooManyRecipients
  | .idempotencyConflict => errnoIdempotencyConflict
  | .dependencyBusy => errnoDependencyBusy
  | .notFound => errnoNotFound
  | .invalidClientMessageId => errnoInvalidClientMessageId

/-- The error number of a store error. -/
def storeErrorKindToErrno : StoreErrorKind → ℕ
  | .dependencyBusy => errnoDependencyBusy
  | .idempotencyConflict => errnoIdempotencyConflict
  | .tooManyRecipients => errnoTooManyRecipients
  | .notFound => errnoNotFound
  | .storage => errnoDependencyBusy

/-! ### Parsing -/

/-- The limit on the content of a message, in bytes. -/
def maxContentBytes : ℕ := 16 * 1024

/-- A chat command after parsing.  It is a legacy command if it came without a client
message id. -/
structure ParsedChatMessage where
  legacy : Bool := false
  hasClientMessageId : Bool := false
  clientMessageId : String := ""
  content : String := ""
  directRecipient : ℤ := 0
  groupId : ℤ := 0
  deriving DecidableEq, Repr

/-- The part of parsing that follows the client message id. -/
def parseContent (kind : CommandKind) (js : Json) (out : ParsedChatMessage) :
    Except Json.Error (ℕ × ParsedChatMessage) := do
  let contentKey := if js.contains "content" then "content" else "msg"
  let content ← (← js.atKey contentKey).getString
  let out := { out with content := content }
  if content.utf8ByteSize > maxContentBytes then
    return (errnoContentTooLong, out)
  match kind with
  | .direct =>
    let recipient ← (← js.atKey "toid").getInt64
    return (0, { out with directRecipient := recipient })
  | .group =>
    let group ← (← js.atKey "groupid").getInt64
    return (0, { out with groupId := group })

/-- Parse a chat command.  The answer is an error number, zero if there is no error, with
what has been parsed so far; a missing field or one of the wrong type is an exception. -/
def parseChatMessage (kind : CommandKind) (js : Json) :
    Except Json.Error (ℕ × ParsedChatMessage) :=
  match js.field? "client_message_id" with
  | none => parseContent kind js { legacy := true }
  | some value => do
      let clientMessageId ← value.getString
      let out : ParsedChatMessage :=
        { hasClientMessageId := true, clientMessageId := clientMessageId }
      if ClientMessageId.isValid clientMessageId then
        parseContent kind js out
      else
        return (errnoInvalidClientMessageId, out)

/-! ### Accepting -/

/-- The key of a legacy command. -/
def makeLegacyIdentity (userId : ℤ) (counter : ℕ) : String :=
  "legacy:" ++ toString userId ++ ":" ++ toString counter

/-- The conversion to an unsigned 64-bit number. -/
def toUInt64 (z : ℤ) : ℕ := (BitVec.ofInt 64 z).toNat

/-- What is known of a command after it has been handled. -/
structure AcceptResultView where
  ok : Bool := false
  duplicate : Bool := false
  errnoCode : ℕ := 0
  clientMessageId : String := ""
  messageId : ℕ := 0
  conversationId : ℕ := 0
  sequence : ℕ := 0
  deriving DecidableEq, Repr

/-- The target of a command: either an error number, or the command without its key. -/
def resolveTarget (userId : ℤ) (parsed : ParsedChatMessage) (kind : CommandKind) :
    Code (Except ℕ SendMessageCommand) :=
  match kind with
  | .direct => do
      let err : ℕ ← Prog.ask (E := Port) (.checkUserExists parsed.directRecipient)
      if err ≠ 0 then
        pure (.error err)
      else
        pure (.ok { kind := .direct
                    content := parsed.content
                    directRecipient := ⟨toUInt64 parsed.directRecipient⟩ })
  | .group => do
      let members : Option (List ℤ) ← Prog.ask (E := Port) (.groupMembers parsed.groupId)
      match members with
      | none => pure (.error errnoDependencyBusy)
      | some userIds =>
        if userIds.isEmpty then
          pure (.error errnoNotFound)
        else if userIds.contains userId then
          pure (.ok { kind := .group
                      content := parsed.content
                      groupId := ⟨toUInt64 parsed.groupId⟩
                      members := userIds.map fun u => ⟨toUInt64 u⟩ })
        else
          pure (.error errnoNotConversationMember)

/-- The text of the key of a command: its own, or for a legacy command a generated one. -/
def chooseKey (userId : ℤ) (parsed : ParsedChatMessage) : Code String :=
  if parsed.legacy then do
    let counter : ℕ ← Prog.ask (E := Port) .legacyCounterFetchAdd
    pure (makeLegacyIdentity userId counter)
  else
    pure parsed.clientMessageId

/-- What an outcome looks like to the network layer. -/
def viewOf (key : String) (outcome : AcceptOutcome) : AcceptResultView :=
  { ok := outcome.ok
    duplicate := outcome.duplicate
    clientMessageId := key
    messageId := outcome.messageId.value
    conversationId := outcome.conversationId.value
    sequence := outcome.sequence.value
    errnoCode := if outcome.ok then 0 else acceptErrorToErrno outcome.error }

/-- The error number of an exception. -/
def faultToErrno : Fault → ℕ
  | .store kind => storeErrorKindToErrno kind
  | .other => errnoDependencyBusy

/-- Handle a parsed command of a session. -/
def acceptChatCommand (rm : ReliableMessaging) (userId generation : ℤ)
    (parsed : ParsedChatMessage) (kind : CommandKind) : Code AcceptResultView := do
  match ← resolveTarget userId parsed kind with
  | .error err => pure { errnoCode := err }
  | .ok target =>
    let key ← chooseKey userId parsed
    match ClientMessageId.ofString key with
    | .error _ => .fail .other
    | .ok clientMessageId =>
      (do
        let outcome ← rm.accept ⟨⟨toUInt64 userId⟩, toUInt64 generation⟩
          { target with clientMessageId := clientMessageId }
        pure (viewOf key outcome)).tryCatch
        fun e => pure { clientMessageId := key, errnoCode := faultToErrno e }

/-- Handle the JSON of a chat command.  An exception of the parser is not answered. -/
def handleChat (rm : ReliableMessaging) (userId generation : ℤ) (kind : CommandKind)
    (js : Json) : Code (Option AcceptResultView) :=
  match parseChatMessage kind js with
  | .error _ => pure none
  | .ok (errno, parsed) =>
    if errno ≠ 0 then
      pure (some { errnoCode := errno, clientMessageId := parsed.clientMessageId })
    else do
      let view ← acceptChatCommand rm userId generation parsed kind
      pure (some view)

end MuduoChat
