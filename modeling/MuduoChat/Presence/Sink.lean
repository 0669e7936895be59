import MuduoChat.Lib.Prog
import MuduoChat.Presence.Directory

/-!
# The sink of a gateway

A gateway keeps a shadow table of the users that it has claimed in the presence directory, with
the connection and the epoch of each claim.  The table is guarded by a mutex.  The operations are
programs whose calls are the critical sections of the mutex and the calls to the directory that
are made outside of it; a critical section makes at most one call to the directory, so it is a
plan with at most one question (`Plan`).
-/

namespace MuduoChat

open Std Prog

/-- The entry of the shadow table. -/
structure Shadow where
  connectionId : ConnectionId
  epoch : SessionEpoch
  deriving DecidableEq, Repr

structure GatewayDeliverResult where
  ok : Bool := false
  staleEpoch : Bool := false
  unreachable : Bool := false
  error : String := ""
  deriving DecidableEq, Repr

/-- What a gateway is set up with: its name, and whether it has a clock for the delays between
renewals that fail. -/
structure GatewayConfig where
  localGateway : GatewayId
  clock : Bool := false

/-- What the mutex of a sink guards. -/
structure GatewayAwareDeliverySink where
  shadow : TreeMap UserId Shadow := ∅
  nextRenewAtMs : TreeMap UserId ℤ := ∅
  renewBackoffMs : TreeMap UserId ℤ := ∅

def kRenewBackoffBaseMs : ℤ := 2000

def kRenewBackoffCapMs : ℤ := 60000

/-! ### Critical sections -/

/-- What a critical section does: it ends, or it asks the directory once and ends then. -/
inductive Plan (α : Type) where
  | done (a : α) (s : GatewayAwareDeliverySink)
  | ask (call : PresenceCall) (k : call.Result → α × GatewayAwareDeliverySink)

namespace GatewayAwareDeliverySink

variable (G : GatewayConfig) (s : GatewayAwareDeliverySink)

/-- A user has been claimed or released, so there is no delay any more. -/
def clearBackoff (user : UserId) : GatewayAwareDeliverySink :=
  { s with
    nextRenewAtMs := s.nextRenewAtMs.erase user
    renewBackoffMs := s.renewBackoffMs.erase user }

def bindUser (user : UserId) (conn : ConnectionId) : Plan ClaimResult :=
  .ask (.claim user G.localGateway conn) fun c =>
    if c.ok then
      (c, { s with shadow := s.shadow.insert user ⟨conn, c.epoch⟩ }.clearBackoff user)
    else (c, s)

def unbindUser (user : UserId) (conn : ConnectionId) (epoch : SessionEpoch) :
    Plan ReleaseResult :=
  .ask (.release user G.localGateway conn epoch) fun r =>
    if r.ok then
      let shadow :=
        if (s.shadow[user]?.any fun x => x.epoch = epoch) = true then s.shadow.erase user
        else s.shadow
      (r, { s with shadow := shadow }.clearBackoff user)
    else (r, s)

def releaseUser (user : UserId) (conn : ConnectionId) : Plan ReleaseResult :=
  match s.shadow[user]? with
  | none => .done { error := .notFound } s
  | some x =>
    if x.connectionId ≠ conn then .done { error := .notEpoch } s
    else
      .ask (.release user G.localGateway conn x.epoch) fun r =>
        if r.ok then (r, { s with shadow := s.shadow.erase user }.clearBackoff user)
        else (r, s)

/-- The first section of a renewal: it takes a snapshot of the shadow entry, unless the renewal
ends here. -/
def snapshot (user : UserId) (now : ℤ) : RenewResult ⊕ Shadow :=
  if G.clock ∧ (s.nextRenewAtMs[user]?.any fun t => now < t) = true then
    .inl { error := .dependencyUnavailable }
  else
    match s.shadow[user]? with
    | none => .inl { error := .notFound }
    | some x => .inr x

/-- The section after a renewal that has succeeded: does the shadow entry still have the epoch? -/
def confirm (user : UserId) (epoch : SessionEpoch) : Bool × GatewayAwareDeliverySink :=
  if (s.shadow[user]?.any fun x => x.epoch = epoch) = true then (true, s.clearBackoff user)
  else (false, s)

/-- The section after a new claim: write its epoch into the shadow entry if that is still the one
of the snapshot. -/
def adopt (user : UserId) (snapEpoch epoch : SessionEpoch) : GatewayAwareDeliverySink :=
  match s.shadow[user]? with
  | some x =>
    if x.epoch = snapEpoch then
      { s with shadow := s.shadow.insert user { x with epoch := epoch } }.clearBackoff user
    else s
  | none => s

/-- The section after a renewal that has failed because the directory is unavailable. -/
def backOff (user : UserId) (now : ℤ) : GatewayAwareDeliverySink :=
  let backoff := (s.renewBackoffMs[user]?.filter fun t => 0 < t).getD kRenewBackoffBaseMs
  { s with
    nextRenewAtMs := s.nextRenewAtMs.insert user (now + backoff)
    renewBackoffMs := s.renewBackoffMs.insert user (min (backoff * 2) kRenewBackoffCapMs) }

/-- The shadow entry of a route, if it is the one the route was made for. -/
def holdsRoute (route : DeliveryRoute) (user : UserId) : Bool :=
  s.shadow[user]?.any fun x => x.epoch = route.sessionEpoch ∧ x.connectionId = route.connectionId

end GatewayAwareDeliverySink

/-- The critical sections. -/
inductive Section where
  | bindUser (user : UserId) (conn : ConnectionId)
  | unbindUser (user : UserId) (conn : ConnectionId) (epoch : SessionEpoch)
  | releaseUser (user : UserId) (conn : ConnectionId)
  | snapshot (user : UserId) (now : ℤ)
  | confirm (user : UserId) (epoch : SessionEpoch)
  | adopt (user : UserId) (snapEpoch epoch : SessionEpoch)
  | backOff (user : UserId) (now : ℤ)
  | claimedUsers
  | shortCircuit (attempt : DeliveryAttempt)
  | locate (user : UserId)
  | deliverLocal (route : DeliveryRoute) (attempt : DeliveryAttempt)
  | crossNode (route : DeliveryRoute) (attempt : DeliveryAttempt)

abbrev Section.Value : Section → Type
  | .bindUser _ _ => ClaimResult
  | .unbindUser _ _ _ => ReleaseResult
  | .releaseUser _ _ => ReleaseResult
  | .snapshot _ _ => RenewResult ⊕ Shadow
  | .confirm _ _ => Bool
  | .adopt _ _ _ => Unit
  | .backOff _ _ => Unit
  | .claimedUsers => List UserId
  | .shortCircuit _ => Option DeliverDisposition
  | .locate _ => LocateResult
  | .deliverLocal _ _ => DeliverDisposition
  | .crossNode _ _ => GatewayDeliverResult

/-- The attempt that a section hands to the local sink, if it does, and the user whose shadow entry
has let it through. -/
def Section.hands (G : GatewayConfig) (s : GatewayAwareDeliverySink) :
    Section → Option (UserId × DeliveryAttempt)
  | .shortCircuit attempt =>
    if s.shadow[attempt.recipient]?.isSome then some (attempt.recipient, attempt) else none
  | .deliverLocal route attempt =>
    if s.holdsRoute route attempt.recipient then some (attempt.recipient, attempt) else none
  | .crossNode route attempt =>
    if route.gatewayId = G.localGateway ∧ s.holdsRoute route route.user = true then
      some (route.user, attempt)
    else none
  | _ => none

/-- What a section does.  The argument `answer` is what the local sink answers to an attempt. -/
def Section.plan (G : GatewayConfig) (answer : DeliverDisposition)
    (s : GatewayAwareDeliverySink) : (x : Section) → Plan x.Value
  | .bindUser user conn => s.bindUser G user conn
  | .unbindUser user conn epoch => s.unbindUser G user conn epoch
  | .releaseUser user conn => s.releaseUser G user conn
  | .snapshot user now => .done (s.snapshot G user now) s
  | .confirm user epoch => .done (s.confirm user epoch).1 (s.confirm user epoch).2
  | .adopt user snapEpoch epoch => .done () (s.adopt user snapEpoch epoch)
  | .backOff user now => .done () (s.backOff user now)
  | .claimedUsers => .done s.shadow.keys s
  | .shortCircuit attempt =>
    .done (if s.shadow[attempt.recipient]?.isSome then some answer else none) s
  | .locate user => .ask (.locate user) fun l => (l, s)
  | .deliverLocal route attempt =>
    .done (if s.holdsRoute route attempt.recipient then answer else .closed) s
  | .crossNode route _ =>
    .done
      (if route.gatewayId ≠ G.localGateway then
        { unreachable := true, error := "cross-node route targets a different gateway" }
      else if s.holdsRoute route route.user then
        if answer = DeliverDisposition.accepted then { ok := true }
        else { error := "local sink disposition is not accepted" }
      else { staleEpoch := true, error := "stale session epoch (dropped)" }) s

/-! ### The operations -/

inductive SinkCall where
  | critical (x : Section)
  | presence (call : PresenceCall)
  | nowMs
  | transport (route : DeliveryRoute) (attempt : DeliveryAttempt)

abbrev SinkCall.Value : SinkCall → Type
  | .critical x => x.Value
  | .presence c => c.Result
  | .nowMs => ℤ
  | .transport _ _ => GatewayDeliverResult

/-- The interface of the operations.  None of its calls throws. -/
abbrev SinkPort : Sig := ⟨SinkCall, SinkCall.Value, Empty⟩

abbrev SinkCode := Prog SinkPort

namespace GatewayConfig

variable (G : GatewayConfig)

def bindUser (user : UserId) (conn : ConnectionId) : SinkCode ClaimResult :=
  Prog.ask (E := SinkPort) (.critical (.bindUser user conn))

def unbindUser (user : UserId) (conn : ConnectionId) (epoch : SessionEpoch) :
    SinkCode ReleaseResult :=
  Prog.ask (E := SinkPort) (.critical (.unbindUser user conn epoch))

def releaseUser (user : UserId) (conn : ConnectionId) : SinkCode ReleaseResult :=
  Prog.ask (E := SinkPort) (.critical (.releaseUser user conn))

/-- The time of the clock, or 0 without one. -/
def renewTime : SinkCode ℤ := if G.clock then Prog.ask (E := SinkPort) .nowMs else pure 0

/-- The end of a renewal that has failed. -/
def renewFailed (user : UserId) (now : ℤ) (r : RenewResult) : SinkCode RenewResult :=
  if r.error = .dependencyUnavailable ∧ G.clock = true then do
    Prog.ask (E := SinkPort) (.critical (.backOff user now))
    pure r
  else pure r

/-- The entry is lost while the shadow entry is still there: claim it again. -/
def reclaim (user : UserId) (now : ℤ) (snap : Shadow) : SinkCode RenewResult := do
  let c ← Prog.ask (E := SinkPort) (.presence (.claim user G.localGateway snap.connectionId))
  if c.ok then do
    Prog.ask (E := SinkPort) (.critical (.adopt user snap.epoch c.epoch))
    pure { ok := true }
  else G.renewFailed user now { error := c.error }

/-- A renewal after its snapshot. -/
def renewFrom (user : UserId) (now : ℤ) (snap : Shadow) : SinkCode RenewResult := do
  let r ← Prog.ask (E := SinkPort)
    (.presence (.renew user G.localGateway snap.connectionId snap.epoch))
  if r.ok then do
    let current ← Prog.ask (E := SinkPort) (.critical (.confirm user snap.epoch))
    pure (if current then r else { error := .notEpoch })
  else if r.error = .notFound then G.reclaim user now snap
  else G.renewFailed user now r

def renew (user : UserId) : SinkCode RenewResult := do
  let now ← G.renewTime
  match ← Prog.ask (E := SinkPort) (.critical (.snapshot user now)) with
  | .inl r => pure r
  | .inr snap => G.renewFrom user now snap

def renewAllClaimed : SinkCode Unit := do
  let users ← Prog.ask (E := SinkPort) (.critical .claimedUsers)
  Prog.forEach (fun user => do
    let _ ← G.renew user
    pure ()) users

/-- An attempt for a user without a shadow entry goes where the directory says. -/
def route (l : LocateResult) (attempt : DeliveryAttempt) : SinkCode DeliverDisposition :=
  if l.ok then
    if l.route.gatewayId ≠ G.localGateway then do
      let r ← Prog.ask (E := SinkPort) (.transport l.route attempt)
      pure (if r.ok then .accepted else .closed)
    else Prog.ask (E := SinkPort) (.critical (.deliverLocal l.route attempt))
  else pure .closed

def deliver (attempt : DeliveryAttempt) : SinkCode DeliverDisposition := do
  match ← Prog.ask (E := SinkPort) (.critical (.shortCircuit attempt)) with
  | some disposition => pure disposition
  | none =>
    let l ← Prog.ask (E := SinkPort) (.critical (.locate attempt.recipient))
    G.route l attempt

def deliverCrossNode (route : DeliveryRoute) (attempt : DeliveryAttempt) :
    SinkCode GatewayDeliverResult :=
  Prog.ask (E := SinkPort) (.critical (.crossNode route attempt))

end GatewayConfig

inductive SinkOp where
  | bindUser (user : UserId) (conn : ConnectionId)
  | unbindUser (user : UserId) (conn : ConnectionId) (epoch : SessionEpoch)
  | releaseUser (user : UserId) (conn : ConnectionId)
  | renew (user : UserId)
  | renewAllClaimed
  | deliver (attempt : DeliveryAttempt)
  | deliverCrossNode (route : DeliveryRoute) (attempt : DeliveryAttempt)

/-- The program of an operation.  What it returns is left out. -/
def GatewayConfig.code (G : GatewayConfig) : SinkOp → SinkCode Unit
  | .bindUser user conn => do let _ ← bindUser user conn
  | .unbindUser user conn epoch => do let _ ← unbindUser user conn epoch
  | .releaseUser user conn => do let _ ← releaseUser user conn
  | .renew user => do let _ ← G.renew user
  | .renewAllClaimed => G.renewAllClaimed
  | .deliver attempt => do let _ ← G.deliver attempt
  | .deliverCrossNode route attempt => do let _ ← deliverCrossNode route attempt

end MuduoChat
