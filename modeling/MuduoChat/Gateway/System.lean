import MuduoChat.Codec.Chat
import MuduoChat.Lib.Serial

/-!
# Gateways over one store

Any number of server processes work on one message store.  Each operation of a process runs
without interruption by another one; inside an operation the state is visible between any two
calls.  A process that is restarted is a new process: it begins with an empty memory and a
boot id of its own.
-/

namespace MuduoChat

open Std Relation

/-- What the processes share and what each of them remembers.  The last four components are
records of what has happened: the last reading of the clock, the attempts made at the sink
with their answers, the answers to queries for the members of a group, and the metrics, each
with the latest entry first. -/
structure World (ι : Type) where
  store : InMemoryMessageStore := {}
  process : ι → Process := fun _ => {}
  users : List ℤ := []
  groupUsers : List (ℤ × ℤ) := []
  clock : ℤ := 0
  sent : List (DeliveryAttempt × DeliverDisposition) := []
  queried : List (ℤ × List ℤ) := []
  metrics : List MetricEvent := []

/-- What the surroundings choose at a call: the reading of the clock, the answer of the sink,
the outcome of jitter, whether a query of the user or group tables fails, and the order in
which the rows of a group come back. -/
structure Env where
  now : ℤ := 0
  disposition : DeliverDisposition := .closed
  jittered : ℤ := 0
  fails : Bool := false
  order : List ℤ := []

instance : Inhabited Env := ⟨{}⟩

namespace World

variable {ι : Type}

/-- The members of a group, in the order in which they joined. -/
def membersOf (w : World ι) (groupId : ℤ) : List ℤ :=
  (w.groupUsers.filter fun r => r.1 = groupId).map Prod.snd

/-- The rows of a query without an order: any arrangement of them. -/
def arranged (rows order : List ℤ) : List ℤ := if order.Perm rows then order else rows

lemma arranged_perm (rows order : List ℤ) : (arranged rows order).Perm rows := by
  unfold arranged
  split
  · assumption
  · exact List.Perm.refl rows

/-- The state in which nothing has been accepted and no process has done anything. -/
structure Initial (w : World ι) : Prop where
  store : w.store = {}
  process : ∀ i, w.process i = {}
  sent : w.sent = []

end World

/-- How the calls of a process are answered. -/
def World.handle {ι : Type} [DecidableEq ι] (i : ι) : Handler Port (World ι) Env
  | .store c, _, w =>
    let a := w.store.answer c
    some (.ok a.1, { w with store := a.2 })
  | .deliver attempt, ω, w =>
    some (.ok ω.disposition, { w with sent := (attempt, ω.disposition) :: w.sent })
  | .nowMs, ω, w => some (.ok ω.now, { w with clock := ω.now })
  | .jitter _, ω, w => some (.ok ω.jittered, w)
  | .load, _, w => some (.ok (w.process i), w)
  | .save p, _, w => some (.ok (), { w with process := Function.update w.process i p })
  | .record e, _, w => some (.ok (), { w with metrics := e :: w.metrics })
  | .legacyCounterFetchAdd, _, w =>
    some (.ok (w.process i).legacyCounter,
      { w with
        process := Function.update w.process i
          { w.process i with
            legacyCounter := ((w.process i).legacyCounter + 1) % 2 ^ 64 } })
  | .checkUserExists userId, ω, w =>
    let errno :=
      if ω.fails then errnoDependencyBusy
      else if userId ∈ w.users then 0
      else errnoNotFound
    some (.ok errno, w)
  | .groupMembers groupId, ω, w =>
    let rows := World.arranged (w.membersOf groupId) ω.order
    if ω.fails then some (.ok none, w)
    else some (.ok (some rows), { w with queried := (groupId, rows) :: w.queried })
  | .joinGroup groupId userId, _, w =>
    some (.ok (),
      { w with
        groupUsers :=
          if (groupId, userId) ∈ w.groupUsers then w.groupUsers
          else w.groupUsers ++ [(groupId, userId)] })
  | .leaveGroup groupId userId, _, w =>
    some (.ok (), { w with groupUsers := w.groupUsers.filter fun r => r ≠ (groupId, userId) })

/-- The operations of a process. -/
inductive Op where
  | accept (sender : SessionIdentity) (cmd : SendMessageCommand)
  | acknowledge (acker : SessionIdentity) (messageId : MessageId)
  | sessionAvailable (session : SessionIdentity)
  | sessionClosed (session : SessionIdentity)
  | resume (session : SessionIdentity)
  | wakeupAccepted (recipients : List UserId)
  | runTick
  | chat (userId generation : ℤ) (kind : CommandKind) (js : Json)
  | joinGroup (groupId userId : ℤ)
  | leaveGroup (groupId userId : ℤ)

/-- What the operations answer. -/
inductive Reply where
  | accepted (outcome : AcceptOutcome)
  | acked (result : AckResult)
  | done
  | wake (ms : ℤ)
  | chat (view : Option AcceptResultView)
  deriving DecidableEq, Repr

/-- The parameters of the processes.  They share their configuration and differ in their boot
ids. -/
structure Setup (ι : Type) where
  leaseMs : ℕ
  config : RetryConfig
  bootId : ι → ℕ
  patience : ℕ := 0

namespace Setup

variable {ι : Type} (S : Setup ι)

def messaging (i : ι) : ReliableMessaging :=
  { leaseMs := S.leaseMs, config := S.config, bootId := S.bootId i, patience := S.patience }

/-- The programs of the operations. -/
def code (i : ι) : Op → Code Reply
  | .accept sender cmd => do return .accepted (← (S.messaging i).accept sender cmd)
  | .acknowledge acker messageId => do
      return .acked (← (S.messaging i).acknowledge acker messageId)
  | .sessionAvailable session => do
      ReliableMessaging.sessionAvailable (S.messaging i) session
      return .done
  | .sessionClosed session => do
      (S.messaging i).sessionClosed session
      return .done
  | .resume session => do
      (S.messaging i).resume session
      return .done
  | .wakeupAccepted recipients => do
      (S.messaging i).wakeupAccepted recipients
      return .done
  | .runTick => do return .wake (← (S.messaging i).runTick)
  | .chat userId generation kind js => do
      return .chat (← handleChat (S.messaging i) userId generation kind js)
  | .joinGroup groupId userId => do
      Prog.ask (E := Port) (.joinGroup groupId userId)
      return .done
  | .leaveGroup groupId userId => do
      Prog.ask (E := Port) (.leaveGroup groupId userId)
      return .done

variable [DecidableEq ι]

/-- The gateways as a system of operations that exclude one another. -/
def system : Serial Port ι (World ι) Env Op Reply := ⟨World.handle, S.code⟩

/-- A state of the gateways: the world, the operation in progress and those that have
ended. -/
abbrev State (ι : Type) := Serial.Config Port ι (World ι) Op Reply

abbrev Step (a b : State ι) : Prop := S.system.Step a b

/-- The states that can be reached from an empty store. -/
def Reachable (a : State ι) : Prop :=
  ∃ w : World ι, w.Initial ∧ ReflTransGen S.Step (Serial.Config.initial w) a

end Setup

end MuduoChat
