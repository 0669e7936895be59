import MuduoChat.Lib.Prog
import MuduoChat.Store.InMemory

/-!
# What the code of a server process calls

The interface over which reliable messaging and the chat codec are written: the message
store, the delivery sink, the clock, the source of jitter, the memory of the process itself,
the metrics recorder, and the tables of users and groups.  The memory of the process (the
coordinator's session tables and the codec's counter) is read and written by calls like
everything else.  It is therefore visible between any two calls of an operation, and what an
operation wrote to it before an exception stays written.
-/

namespace MuduoChat

open Std

/-! ### Configuration -/

/-- The retry and retention parameters, with the defaults of the source.  The seed of the
jitter is left out: the random source answers anything. -/
structure RetryConfig where
  ackTimeoutMs : ℤ := 30000
  backoffBaseMs : ℤ := 1000
  backoffCapMs : ℤ := 60000
  backoffMultiplier : ℤ := 2
  jitterFraction : ℚ := 1 / 5
  messageRetentionMs : ℤ := 7 * 24 * 3600 * 1000
  ackedRetentionMs : ℤ := 24 * 3600 * 1000
  expiredRetentionMs : ℤ := 24 * 3600 * 1000
  cleanupBatch : ℕ := 100
  cleanupCycleMs : ℤ := 60 * 1000
  retryBatchLimit : ℕ := 500

/-- The parameters with which a coordinator is constructed.  The last one is not in the
source: it bounds the claim loop from above, see `Coordinator.claimConversation`. -/
structure Coordinator where
  leaseMs : ℕ
  config : RetryConfig
  bootId : ℕ
  patience : ℕ := 0

/-! ### The memory of a process -/

/-- What a process keeps in memory: the session tables of its coordinator, the next attempts
that the current tick has scheduled, the time of the last cleanup, and the counter of the
legacy keys. -/
structure Process where
  paused : TreeSet SessionIdentity := ∅
  activeByUser : TreeMap UserId SessionIdentity := ∅
  observedGenerationByUser : TreeMap UserId ℕ := ∅
  tickNextAttemptsMs : List ℤ := []
  lastCleanupMs : ℤ := 0
  legacyCounter : ℕ := 0

/-- The user has an active session, and it is another one. -/
def Process.superseded (p : Process) (session : SessionIdentity) : Bool :=
  match p.activeByUser[session.userId]? with
  | some active => active ≠ session
  | none => false

/-- A later generation of the user has been seen. -/
def Process.outdated (p : Process) (session : SessionIdentity) : Bool :=
  match p.observedGenerationByUser[session.userId]? with
  | some observed => session.generation < observed
  | none => false

/-! ### Metrics -/

inductive AcceptMetric where
  | accepted
  | duplicate
  | conflict
  | tooManyRecipients
  deriving DecidableEq, Repr

/-- What is recorded.  Recording never disturbs the operation that records. -/
inductive MetricEvent where
  | accept (outcome : AcceptMetric)
  | acceptedTimestamp (messageKey : ℕ) (acceptedAtMs : ℤ)
  | legacyMode
  | deliveryCreated (deliveryId : ℕ) (acceptedAtMs : ℤ)
  | deliveryTransition (deliveryId : ℕ) (src dst : DeliveryState)
  | attempt (isRetry : Bool)
  | ack (messageKey : ℕ)
  | eviction (deliveryId : ℕ) (messageKey : ℕ)
  deriving DecidableEq, Repr

/-- The identity of a delivery inside the recorder: a 64-bit hash of message and
recipient. -/
def deliveryMetricId (messageId recipient : ℕ) : ℕ :=
  let h : BitVec 64 := BitVec.ofNat 64 recipient + 0x9e3779b97f4a7c15#64
  let h := (h ^^^ (h >>> 30)) * 0xbf58476d1ce4e5b9#64
  let h := (h ^^^ (h >>> 27)) * 0x94d049bb133111eb#64
  let h := h ^^^ (h >>> 31)
  ((BitVec.ofNat 64 messageId <<< 1) ^^^ (h >>> 1)).toNat

/-! ### The calls -/

inductive StoreErrorKind where
  | dependencyBusy
  | idempotencyConflict
  | tooManyRecipients
  | notFound
  | storage
  deriving DecidableEq, Repr

/-- The exceptions that can pass through an operation. -/
inductive Fault where
  | store (kind : StoreErrorKind)
  | other
  deriving DecidableEq, Repr

/-- The calls of a process outside the store.  The last five are those of the chat codec and
of the group tables. -/
inductive Call where
  | store (c : StoreCall)
  | deliver (attempt : DeliveryAttempt)
  | nowMs
  | jitter (delay : ℤ)
  | load
  | save (p : Process)
  | record (e : MetricEvent)
  | legacyCounterFetchAdd
  | checkUserExists (userId : ℤ)
  | groupMembers (groupId : ℤ)
  | joinGroup (groupId userId : ℤ)
  | leaveGroup (groupId userId : ℤ)

/-- What the calls answer.  The query for the members of a group answers `none` if it
fails. -/
def Call.Value : Call → Type
  | .store c => c.Value
  | .deliver _ => DeliverDisposition
  | .nowMs => ℤ
  | .jitter _ => ℤ
  | .load => Process
  | .save _ => Unit
  | .record _ => Unit
  | .legacyCounterFetchAdd => ℕ
  | .checkUserExists _ => ℕ
  | .groupMembers _ => Option (List ℤ)
  | .joinGroup _ _ => Unit
  | .leaveGroup _ _ => Unit

/-- The interface of a process. -/
def Port : Sig := ⟨Call, Call.Value, Fault⟩

/-- The programs of a process. -/
abbrev Code (α : Type) := Prog Port α

namespace Code

def store (c : StoreCall) : Code c.Value := Prog.ask (E := Port) (.store c)

def deliver (attempt : DeliveryAttempt) : Code DeliverDisposition :=
  Prog.ask (E := Port) (.deliver attempt)

def nowMs : Code ℤ := Prog.ask (E := Port) .nowMs

def jitter (delay : ℤ) : Code ℤ := Prog.ask (E := Port) (.jitter delay)

def load : Code Process := Prog.ask (E := Port) .load

def save (p : Process) : Code Unit := Prog.ask (E := Port) (.save p)

def record (e : MetricEvent) : Code Unit := Prog.ask (E := Port) (.record e)

/-- Change the memory of the process. -/
def modify (f : Process → Process) : Code Unit := do
  let p ← load
  save (f p)

/-- Record that a delivery went from one state to another. -/
def recordTransition (messageId : MessageId) (recipient : UserId)
    (src dst : DeliveryState) : Code Unit :=
  record (.deliveryTransition (deliveryMetricId messageId.value recipient.value) src dst)

/-- Record that a delivery is no longer followed. -/
def recordEviction (messageId : MessageId) (recipient : UserId) : Code Unit :=
  record (.eviction (deliveryMetricId messageId.value recipient.value) messageId.value)

end Code

end MuduoChat
