import MuduoChat.Gateway.System
import MuduoChat.Store.Consistent

/-!
# What the operations of a gateway may do

The contract of the operations: the calls an operation may make, and in which states.  The
interesting calls are those that write delivery rows.  There are seven ways in which a row
can change in a step (`RowStep`), and everything that is proved about rows is derived from
this list.
-/

namespace MuduoChat

open Std Coordinator ReliableMessaging

variable {ι : Type}

/-- The operations that can accept a message. -/
def Op.accepts : Op → Bool
  | .accept .. | .chat .. => true
  | _ => false

def Op.ticks : Op → Bool
  | .sessionAvailable _ | .runTick => true
  | _ => false

/-- The ledger of the shared store is consistent. -/
structure World.Consistent (w : World ι) : Prop where
  messages : w.store.Messages
  rows : w.store.Rows

/-! ### Writes of a row -/

/-- The recipient acknowledges a row.  The session is one that is heard, and the row is as it
was when the operation began. -/
structure AckWrite (i : ι) (start w : World ι) (acker : SessionIdentity) (messageId : MessageId)
    (cur d : Delivery) : Prop where
  heard : (start.process i).superseded acker = false ∧ (start.process i).outdated acker = false
  message : cur.messageId = messageId
  mine : cur.recipient = acker.userId
  before : start.store.row cur.key = some cur
  open_or_expired : cur.state ≠ .acknowledged
  eq : d = { acked w.clock cur with sequence := d.sequence }

/-- The reasons for which a lease is given up: a new session of the user fences it, the
session that holds it is closed, or a tick finds the acknowledgement overdue. -/
inductive ReleaseReason (S : Setup ι) (i : ι) (w : World ι) (cur : Delivery) : Op → Prop
  | fenced (session : SessionIdentity) (huser : cur.leaseOwner.userId = session.userId)
      (hother : ¬(cur.leaseOwner = session ∧ cur.leaseBootId = S.bootId i)) :
      ReleaseReason S i w cur (.sessionAvailable session)
  | closed (session : SessionIdentity) (howner : cur.leaseOwner = session) :
      ReleaseReason S i w cur (.sessionClosed session)
  | overdue (op : Op) (hticks : op.ticks = true) (hdue : cur.nextAttemptAtMs ≤ w.clock)
      (hretry : retrySession (w.process i) cur = some cur.leaseOwner) :
      ReleaseReason S i w cur op

/-- A lease is given up. -/
structure ReleaseWrite (S : Setup ι) (i : ι) (op : Op) (w : World ι) (cur d : Delivery) :
    Prop where
  inFlight : cur.state = .inFlight
  reason : ReleaseReason S i w cur op
  eq : d = { released cur with sequence := d.sequence }

/-- A row is claimed for a session.  It stands first in its conversation, it can be claimed
at the time of the last reading of the clock, and the sink has just accepted an attempt for
it. -/
structure ClaimWrite (S : Setup ι) (i : ι) (w : World ι) (session : SessionIdentity)
    (message : Message) (cur d : Delivery) : Prop where
  found : w.store.findMessage cur.messageId = some message
  mine : cur.recipient = session.userId
  claimable : claimable w.clock cur = true
  head : w.store.HeadRow cur
  sent : w.sent.head? = some (attemptFor message (w.store.fillSequence cur), .accepted)
  eq : ∃ delay, d = (S.messaging i).claimed session w.clock delay
    (isLegacyClientMessageId message.command.clientMessageId.value) (w.store.fillSequence cur)

/-- The ways in which the row under a key can change in a step of an operation. -/
inductive RowStep (S : Setup ι) (i : ι) (op : Op) (start w : World ι) (k : DeliveryKey) :
    Option Delivery → Option Delivery → Prop
  | same (x : Option Delivery) : RowStep S i op start w k x x
  | create {m : Message} {u : UserId} (hop : op.accepts = true)
      (hm : w.store.findMessage m.id = some m) (hu : u ∈ recipientsFor m.command)
      (hlast : m.sequence.value = w.store.lastSequence m.conversationId)
      (hkey : (newDelivery m (w.clock + S.config.messageRetentionMs) u).key = k) :
      RowStep S i op start w k none
        (some (newDelivery m (w.clock + S.config.messageRetentionMs) u))
  | ack {acker : SessionIdentity} {messageId : MessageId} {cur d : Delivery}
      (hop : op = .acknowledge acker messageId) (h : AckWrite i start w acker messageId cur d) :
      RowStep S i op start w k (some cur) (some d)
  | release {cur d : Delivery} (h : ReleaseWrite S i op w cur d) :
      RowStep S i op start w k (some cur) (some d)
  | claim {session : SessionIdentity} {message : Message} {cur d : Delivery}
      (h : ClaimWrite S i w session message cur d) :
      RowStep S i op start w k (some cur) (some d)
  | expire {cur : Delivery} (hop : op.ticks = true) (hopen : cur.state.terminal = false)
      (hdue : cur.expiresAtMs < w.clock) :
      RowStep S i op start w k (some cur) (some { cur with state := .expired })
  | remove {cur : Delivery} (hop : op.ticks = true)
      (hdue : cur.state = .acknowledged ∧
          cur.acknowledgedAtMs ≤ w.clock - S.config.ackedRetentionMs ∨
        cur.state = .expired ∧ cur.expiresAtMs ≤ w.clock - S.config.expiredRetentionMs) :
      RowStep S i op start w k (some cur) none

section inversion

variable {S : Setup ι} {i : ι} {op : Op} {start w : World ι} {k : DeliveryKey} {cur d : Delivery}

lemma RowStep.expiresAtMs_eq (h : RowStep S i op start w k (some cur) (some d)) :
    d.expiresAtMs = cur.expiresAtMs := by
  cases h with
  | same => rfl
  | ack hop hack => rw [hack.eq]; rfl
  | release hrel => rw [hrel.eq]; rfl
  | claim hclaim =>
    obtain ⟨delay, rfl⟩ := hclaim.eq
    rw [w.store.fillSequence_eq cur]
    rfl
  | expire => rfl

/-- A row is acknowledged by its recipient, or at a claim of a legacy message.  The time is
that of the last reading of the clock. -/
lemma RowStep.acks (h : RowStep S i op start w k (some cur) (some d))
    (hcur : cur.state ≠ .acknowledged) (hd : d.state = .acknowledged) :
    d.acknowledgedAtMs = w.clock ∧
      ((∃ acker messageId, op = .acknowledge acker messageId ∧
          AckWrite i start w acker messageId cur d) ∨
        ∃ session message, ClaimWrite S i w session message cur d ∧
          isLegacyClientMessageId message.command.clientMessageId.value = true) := by
  cases h with
  | same => exact absurd hd hcur
  | ack hop hack =>
    refine ⟨?_, .inl ⟨_, _, hop, hack⟩⟩
    rw [hack.eq]
    rfl
  | release hrel =>
    rw [hrel.eq] at hd
    exact absurd hd (by simp [released])
  | @claim session message _ _ hclaim =>
    obtain ⟨delay, rfl⟩ := id hclaim.eq
    have hlegacy : isLegacyClientMessageId message.command.clientMessageId.value = true := by
      by_contra hnot
      simp [claimed, hnot] at hd
    exact ⟨by simp [claimed, hlegacy], .inr ⟨session, message, hclaim, hlegacy⟩⟩
  | expire => exact absurd hd (by simp)

lemma RowStep.expires (h : RowStep S i op start w k (some cur) (some d))
    (hcur : cur.state ≠ .expired) (hd : d.state = .expired) :
    op.ticks = true ∧ cur.expiresAtMs < w.clock := by
  cases h with
  | same => exact absurd hd hcur
  | ack hop hack =>
    rw [hack.eq] at hd
    exact absurd hd (by simp [acked])
  | release hrel =>
    rw [hrel.eq] at hd
    exact absurd hd (by simp [released])
  | claim hclaim =>
    obtain ⟨delay, rfl⟩ := hclaim.eq
    have hstate : (if isLegacyClientMessageId _ then DeliveryState.acknowledged else .inFlight) =
      .expired := hd
    split at hstate <;> cases hstate
  | expire hop hopen hdue => exact ⟨hop, hdue⟩

lemma RowStep.of_terminal (h : RowStep S i op start w k (some cur) (some d))
    (hterm : cur.state.terminal = true) :
    d = cur ∨ cur.state = .expired ∧ ∃ acker messageId, op = .acknowledge acker messageId ∧
      AckWrite i start w acker messageId cur d := by
  cases h with
  | same => exact .inl rfl
  | ack hop hack =>
    refine .inr ⟨?_, _, _, hop, hack⟩
    have hne := hack.open_or_expired
    revert hterm hne
    cases cur.state <;> simp
  | release hrel =>
    rw [hrel.inFlight] at hterm
    exact absurd hterm (by simp)
  | claim hclaim =>
    rw [open_of_claimable hclaim.claimable] at hterm
    exact absurd hterm (by simp)
  | expire hop hopen =>
    rw [hopen] at hterm
    exact absurd hterm (by simp)

end inversion

/-! ### The calls -/

/-- The attempt is for a row that is open and stands first in its conversation. -/
def Deliverable (w : World ι) (attempt : DeliveryAttempt) : Prop :=
  ∃ cur message, w.store.row cur.key = some cur ∧
    w.store.findMessage cur.messageId = some message ∧ cur.state.terminal = false ∧
    w.store.HeadRow cur ∧ attempt = attemptFor message (w.store.fillSequence cur)

/-- The calls an operation may make. -/
def Allowed (S : Setup ι) (i : ι) (op : Op) (start : World ι) : Call → World ι → Prop
  | .store (.updateDelivery d), w => ∃ cur, w.store.row d.key = some cur ∧
      ((∃ acker messageId, op = .acknowledge acker messageId ∧
          AckWrite i start w acker messageId cur d) ∨
        ReleaseWrite S i op w cur d ∨
        ∃ session message, ClaimWrite S i w session message cur d)
  | .store (.getOrCreateConversation _ _), _ => op.accepts = true
  | .store (.insertMessage draft), w =>
    op.accepts = true ∧ w.store.acceptedUnder draft.key = none
  | .store (.insertDelivery d), w => op.accepts = true ∧ ∃ m u,
      w.store.findMessage m.id = some m ∧ u ∈ recipientsFor m.command ∧
      m.sequence.value = w.store.lastSequence m.conversationId ∧
      d = newDelivery m (w.clock + S.config.messageRetentionMs) u
  | .store (.expireDeliveriesDetailed nowMs _), w => op.ticks = true ∧ nowMs = w.clock
  | .store (.cleanupDeliveries ackedBeforeMs expiredBeforeMs _), w => op.ticks = true ∧
      ackedBeforeMs = w.clock - S.config.ackedRetentionMs ∧
      expiredBeforeMs = w.clock - S.config.expiredRetentionMs
  | .deliver attempt, w => Deliverable w attempt
  | _, _ => True

/-! ### What allowed calls do -/

lemma RowStep.touch {S : Setup ι} {i : ι} {op : Op} {start w : World ι} {k : DeliveryKey}
    {x y : Option Delivery} (h : RowStep S i op start w k x y) : w.store.Touch k x y := by
  cases h with
  | same => exact .same _
  | create hop hm hu hlast hkey => exact .create hkey hm rfl hu hlast rfl
  | ack hop hack =>
    rw [hack.eq]
    exact .write rfl rfl rfl (by simp [acked]) (by simp [acked])
  | release hrel =>
    rw [hrel.eq]
    exact .write rfl rfl rfl (by simp [hrel.inFlight]) (by simp [released])
  | @claim session message cur d hclaim =>
    obtain ⟨delay, rfl⟩ := hclaim.eq
    have hfill := w.store.fillSequence_eq cur
    refine .write ?_ ?_ ?_ (fun _ => open_of_claimable hclaim.claimable)
      fun _ => ⟨?_, hclaim.head⟩
    · rw [hfill]
      rfl
    · rw [hfill]
      rfl
    · rw [hfill]
      rfl
    · rw [hfill]
      exact hclaim.mine.symm
  | expire hop hopen hdue => exact .write rfl rfl rfl (by simp) (by simp)
  | remove hop hdue => exact .remove _

lemma rowStep_updateDelivery {S : Setup ι} {i : ι} {op : Op} {start w : World ι} {d cur : Delivery}
    (hcur : w.store.row d.key = some cur)
    (h : RowStep S i op start w d.key (some cur) (some d)) (k : DeliveryKey) :
    RowStep S i op start w k (w.store.row k) ((w.store.updateDelivery d).row k) := by
  rw [InMemoryMessageStore.row_updateDelivery, hcur]
  by_cases hk : d.key = k
  · subst hk
    simpa [hcur] using h
  · simpa [hk] using RowStep.same _

section

variable [DecidableEq ι] {S : Setup ι} {i : ι} {op : Op} {start w w' : World ι} {c : Call}
  {ω : Env} {r : Except Fault c.Value}

lemma World.handle_store_eq (h : World.handle i c ω w = some (r, w')) :
    (∃ c', c = .store c' ∧ w'.store = (w.store.answer c').2) ∨
      (∀ c', c ≠ .store c') ∧ w'.store = w.store := by
  cases c with
  | store c' =>
    cases h
    exact .inl ⟨c', rfl, rfl⟩
  | groupMembers groupId =>
    unfold World.handle at h
    dsimp only at h
    split at h <;> obtain ⟨-, rfl⟩ := answer_inj h <;>
      exact .inr ⟨by simp, rfl⟩
  | _ =>
    cases h
    exact .inr ⟨by simp, rfl⟩

/-- **Inversion of an allowed call**, for one row. -/
lemma Allowed.rowStep (hallow : Allowed S i op start c w)
    (h : World.handle i c ω w = some (r, w')) (k : DeliveryKey) :
    RowStep S i op start w k (w.store.row k) (w'.store.row k) := by
  rcases World.handle_store_eq h with ⟨c', rfl, hstore⟩ | ⟨-, hstore⟩
  swap
  · rw [hstore]
    exact .same _
  rw [hstore]
  cases c' with
  | getOrCreateConversation sender cmd =>
    rw [show (w.store.answer (.getOrCreateConversation sender cmd)).2.row k = w.store.row k by
      unfold InMemoryMessageStore.row
      exact congrArg (·[k]?) (w.store.deliveries_getOrCreateConversation sender cmd)]
    exact .same _
  | insertDelivery d =>
    obtain ⟨hop, m, u, hm, hu, hlast, rfl⟩ := hallow
    rw [show (w.store.answer (.insertDelivery _)).2.row k = _ from
      w.store.row_insertDelivery _ k]
    by_cases hk : (newDelivery m (w.clock + S.config.messageRetentionMs) u).key = k ∧
        w.store.row (newDelivery m (w.clock + S.config.messageRetentionMs) u).key = none
    · rw [if_pos hk, ← hk.1, hk.2]
      exact .create hop hm hu hlast rfl
    · rw [if_neg hk]
      exact .same _
  | updateDelivery d =>
    obtain ⟨cur, hcur, ⟨acker, messageId, hop, hack⟩ | hrel | ⟨session, message, hclaim⟩⟩ := hallow
    · exact rowStep_updateDelivery hcur (.ack hop hack) k
    · exact rowStep_updateDelivery hcur (.release hrel) k
    · exact rowStep_updateDelivery hcur (.claim hclaim) k
  | expireDeliveriesDetailed nowMs limit =>
    obtain ⟨hop, rfl⟩ := hallow
    rcases w.store.row_expireDeliveriesDetailed w.clock limit k with heq | ⟨d, hd, hopen, hdue, heq⟩
    · rw [show (w.store.answer (.expireDeliveriesDetailed w.clock limit)).2.row k = _ from heq]
      exact .same _
    · rw [show (w.store.answer (.expireDeliveriesDetailed w.clock limit)).2.row k = _ from heq, hd]
      exact .expire hop hopen hdue
  | cleanupDeliveries ackedBeforeMs expiredBeforeMs limit =>
    obtain ⟨hop, rfl, rfl⟩ := hallow
    rcases w.store.row_cleanupDeliveries (w.clock - S.config.ackedRetentionMs)
      (w.clock - S.config.expiredRetentionMs) limit k with heq | ⟨d, hd, hdue, heq⟩
    · rw [show (w.store.answer (.cleanupDeliveries _ _ limit)).2.row k = _ from heq]
      exact .same _
    · rw [show (w.store.answer (.cleanupDeliveries _ _ limit)).2.row k = _ from heq, hd]
      exact .remove hop hdue
  | _ => exact .same _

lemma sameMessages_of_handle (h : World.handle i c ω w = some (r, w'))
    (hc : ∀ draft, c ≠ .store (.insertMessage draft)) :
    w.store.SameMessages w'.store := by
  rcases World.handle_store_eq h with ⟨c', rfl, hstore⟩ | ⟨-, hstore⟩
  swap
  · rw [hstore]
    exact .refl _
  rw [hstore]
  cases c' with
  | insertMessage draft => exact absurd rfl (hc draft)
  | getOrCreateConversation sender cmd =>
    exact w.store.sameMessages_getOrCreateConversation sender cmd
  | _ => constructor <;> rfl

lemma Allowed.consistent (hw : w.Consistent) (hallow : Allowed S i op start c w)
    (h : World.handle i c ω w = some (r, w')) : w'.Consistent := by
  by_cases hc : ∃ draft, c = .store (.insertMessage draft)
  · obtain ⟨draft, rfl⟩ := hc
    cases h
    exact ⟨hw.messages.insertMessage hallow.2, hw.rows.insertMessage hw.messages draft⟩
  · have hsame : w.store.SameMessages w'.store :=
      sameMessages_of_handle h fun draft hd => hc ⟨draft, hd⟩
    exact ⟨hw.messages.congr hsame, hw.rows.step hw.messages hsame fun k =>
      (hallow.rowStep h k).touch⟩

end

end MuduoChat
