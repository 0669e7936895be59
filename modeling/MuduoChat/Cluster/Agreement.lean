import MuduoChat.Cluster.Scans

/-!
# The two adapters of the ledger

The calls of the ledger that both adapters answer, as a sequence made by one process that is alone
at the database.  The adapters give the same answers (`ledger_adapters_agree`) as long as no call
meets one of the points in which they differ (`LedgerCall.Regular`): the MySQL adapter does not
write a message whose key is used, and blanks at the end of a key do not count; it refuses commands
with too many recipients, writes every new row as a fresh one, reads the conversation and the
sequence of a row from its message, drops the generation of an owner without a user, lets a row
without an owner take over the one of the row before, and keeps a row whose time is exactly the
cutoff of a cleanup.
-/

namespace MuduoChat

open Std InMemoryMessageStore

/-- The calls that are compared. -/
inductive LedgerCall where
  | getOrCreateConversation (sender : SessionIdentity) (cmd : SendMessageCommand)
  | insertMessage (draft : Message)
  | insertDelivery (delivery : Delivery)
  | updateDelivery (delivery : Delivery)
  | deliveriesByRecipient (recipient : UserId)
  | deliveriesDueForRetry (nowMs : ℤ) (limit : ℕ)
  | expireDeliveries (nowMs : ℤ) (limit : ℕ)
  | cleanupDeliveries (ackedBeforeMs expiredBeforeMs : ℤ) (limit : ℕ)

/-- What they answer. -/
inductive LedgerAnswer where
  | conversation (id : ConversationId)
  | message (accepted : Message)
  | done
  | rows (deliveries : List Delivery)
  | count (n : ℕ)
  deriving DecidableEq

instance (ds ds' : List Delivery) : Decidable (SameRows ds ds') :=
  decidable_of_iff
    ((∀ d ∈ ds.map Delivery.compared, d ∈ ds'.map Delivery.compared) ∧
      ∀ d ∈ ds'.map Delivery.compared, d ∈ ds.map Delivery.compared)
    ⟨fun h d => ⟨h.1 d, h.2 d⟩, fun h => ⟨fun d => (h d).1, fun d => (h d).2⟩⟩

namespace LedgerAnswer

/-- The rows of an answer. -/
def deliveries : LedgerAnswer → List Delivery
  | .rows ds => ds
  | _ => []

/-- An answer without its rows. -/
def withoutRows : LedgerAnswer → LedgerAnswer
  | .rows _ => .rows []
  | a => a

/-- The answers are the same.  Rows are compared as sets. -/
def Agree (a b : LedgerAnswer) : Prop :=
  a.withoutRows = b.withoutRows ∧ SameRows a.deliveries b.deliveries

instance : DecidableRel Agree := fun a b =>
  inferInstanceAs (Decidable (a.withoutRows = b.withoutRows ∧ SameRows a.deliveries b.deliveries))

lemma Agree.of_eq {a b : LedgerAnswer} (h : a = b) : a.Agree b := by
  subst h
  exact ⟨rfl, fun _ => Iff.rfl⟩

end LedgerAnswer

namespace LedgerCall

/-- The answer in memory. -/
def inMemory (m : InMemoryMessageStore) : LedgerCall → LedgerAnswer × InMemoryMessageStore
  | .getOrCreateConversation sender cmd =>
    let (id, m') := m.getOrCreateConversation sender cmd
    (.conversation id, m')
  | .insertMessage draft =>
    let (accepted, m') := m.insertMessage draft
    (.message accepted, m')
  | .insertDelivery delivery => (.done, m.insertDelivery delivery)
  | .updateDelivery delivery => (.done, m.updateDelivery delivery)
  | .deliveriesByRecipient recipient => (.rows (m.deliveriesByRecipient recipient), m)
  | .deliveriesDueForRetry nowMs limit => (.rows (m.deliveriesDueForRetry nowMs limit), m)
  | .expireDeliveries nowMs limit =>
    let (n, m') := m.expireDeliveries nowMs limit
    (.count n, m')
  | .cleanupDeliveries ackedBeforeMs expiredBeforeMs limit =>
    let (n, m') := m.cleanupDeliveries ackedBeforeMs expiredBeforeMs limit
    (.count n, m')

/-- The program of the MySQL adapter. -/
def mySQL (fanOutCap : ℕ) : LedgerCall → Query LedgerAnswer
  | .getOrCreateConversation sender cmd => do
      let id ← MySQLMessageStore.getOrCreateConversation fanOutCap sender cmd
      pure (.conversation id)
  | .insertMessage draft => do
      let accepted ← MySQLMessageStore.insertMessage draft
      pure (.message accepted)
  | .insertDelivery delivery => do
      MySQLMessageStore.insertDelivery delivery
      pure .done
  | .updateDelivery delivery => do
      MySQLMessageStore.updateDelivery delivery
      pure .done
  | .deliveriesByRecipient recipient => do
      let ds ← MySQLMessageStore.deliveriesByRecipient recipient
      pure (.rows ds)
  | .deliveriesDueForRetry nowMs limit => do
      let ds ← MySQLMessageStore.deliveriesDueForRetry nowMs limit
      pure (.rows ds)
  | .expireDeliveries nowMs limit => do
      let n ← MySQLMessageStore.expireDeliveries nowMs limit
      pure (.count n)
  | .cleanupDeliveries ackedBeforeMs expiredBeforeMs limit => do
      let n ← MySQLMessageStore.cleanupDeliveries ackedBeforeMs expiredBeforeMs limit
      pure (.count n)

/-- The answers to a sequence of calls in memory. -/
def inMemoryRun : InMemoryMessageStore → List LedgerCall → List LedgerAnswer
  | _, [] => []
  | m, c :: calls => (c.inMemory m).1 :: inMemoryRun (c.inMemory m).2 calls

/-- The sequence of calls as a program of the MySQL adapter. -/
def mySQLRun (fanOutCap : ℕ) : List LedgerCall → Query (List LedgerAnswer)
  | [] => pure []
  | c :: calls => do
      let a ← c.mySQL fanOutCap
      let rest ← mySQLRun fanOutCap calls
      pure (a :: rest)

/-- The call is one of those that are compared: identifiers fit in 31 bits, numbers in their
types, times are whole seconds, a message belongs to a conversation that exists, and no limit is
reached. -/
def InScope (m : InMemoryMessageStore) : LedgerCall → Prop
  | .getOrCreateConversation sender cmd => CommandFits sender cmd
  | .insertMessage draft =>
    draft.senderId.value < 2 ^ 31 ∧
      0 < draft.conversationId.value ∧ draft.conversationId.value < m.nextConversationId
  | .insertDelivery delivery => delivery.Storable
  | .updateDelivery delivery => delivery.Storable
  | .deliveriesByRecipient recipient => recipient.value < 2 ^ 31
  | .deliveriesDueForRetry nowMs limit =>
    WholeSeconds nowMs ∧ (m.rowsWith (dueForRetry nowMs)).length ≤ limit
  | .expireDeliveries nowMs limit =>
    WholeSeconds nowMs ∧ (m.rowsWith (dueForExpiry nowMs)).length ≤ limit
  | .cleanupDeliveries ackedBeforeMs expiredBeforeMs limit =>
    WholeSeconds ackedBeforeMs ∧ WholeSeconds expiredBeforeMs ∧
      (m.rowsWith (dueAcked ackedBeforeMs)).length ≤ limit ∧
        (m.rowsWith (dueExpired expiredBeforeMs)).length ≤ limit

/-- The call does not meet a point in which the adapters differ. -/
def Regular (fanOutCap : ℕ) (m : InMemoryMessageStore) : LedgerCall → Prop
  | .getOrCreateConversation _ cmd => ¬(cmd.kind = .group ∧ cmd.members.length > fanOutCap)
  | .insertMessage draft => m.KeyFree draft
  | .insertDelivery delivery =>
    m.row delivery.key = none → delivery.Fresh ∧ m.OfMessage delivery
  | .updateDelivery delivery =>
    (m.row delivery.key).isSome → delivery.OwnerWhole ∧ m.OfMessage delivery
  | .deliveriesByRecipient recipient =>
    m.OwnersApart fun d => decide (d.recipient.value = recipient.value)
  | .deliveriesDueForRetry nowMs _ => m.OwnersApart (dueForRetry nowMs)
  | .expireDeliveries _ _ => True
  | .cleanupDeliveries ackedBeforeMs expiredBeforeMs _ =>
    (∀ d ∈ m.rowsWith fun d => d.state = .acknowledged, d.acknowledgedAtMs ≠ ackedBeforeMs) ∧
      ∀ d ∈ m.rowsWith fun d => d.state = .expired, d.expiresAtMs ≠ expiredBeforeMs

instance (sender : SessionIdentity) (cmd : SendMessageCommand) :
    Decidable (CommandFits sender cmd) :=
  match h : cmd.kind with
  | .direct => decidable_of_iff
      (sender.userId.value < 2 ^ 31 ∧ cmd.directRecipient.value < 2 ^ 31) (by simp [CommandFits, h])
  | .group => decidable_of_iff (cmd.groupId.value < 2 ^ 31) (by simp [CommandFits, h])

instance (d : Delivery) : Decidable d.Storable :=
  decidable_of_iff
    (d.recipient.value < 2 ^ 31 ∧ d.attemptCount < 2 ^ 32 ∧ d.leaseOwner.userId.value < 2 ^ 31 ∧
      d.leaseOwner.generation < 2 ^ 64 ∧ d.leaseBootId < 2 ^ 64 ∧ WholeSeconds d.leaseUntilMs ∧
      WholeSeconds d.acknowledgedAtMs ∧ WholeSeconds d.expiresAtMs ∧
      WholeSeconds d.lastSentAtMs ∧ WholeSeconds d.nextAttemptAtMs)
    ⟨fun ⟨h1, h2, h3, h4, h5, h6, h7, h8, h9, h10⟩ => ⟨h1, h2, h3, h4, h5, h6, h7, h8, h9, h10⟩,
      fun ⟨h1, h2, h3, h4, h5, h6, h7, h8, h9, h10⟩ => ⟨h1, h2, h3, h4, h5, h6, h7, h8, h9, h10⟩⟩

instance (m : InMemoryMessageStore) (d : Delivery) : Decidable (m.OfMessage d) :=
  match h : m.findMessage d.messageId with
  | none => isFalse fun ⟨_, hmsg, _⟩ => by simp [h] at hmsg
  | some msg => decidable_of_iff
      (msg.conversationId = d.conversationId ∧ (d.state = .inFlight → msg.sequence = d.sequence))
      (by simp [OfMessage, h])

instance (d : Delivery) : Decidable d.OwnerWhole :=
  inferInstanceAs (Decidable (d.state.terminal = false → d.leaseOwner.userId.value = 0 →
    d.leaseOwner = {} ∧ d.leaseBootId = 0))

instance (d : Delivery) : Decidable d.Fresh := inferInstanceAs (Decidable (d = _))

instance (m : InMemoryMessageStore) (draft : Message) : Decidable (m.KeyFree draft) :=
  inferInstanceAs (Decidable (∀ p ∈ m.messagesById.toList, _))

instance (m : InMemoryMessageStore) : DecidablePred (InScope m) := fun c => by
  cases c <;> dsimp only [InScope] <;> infer_instance

instance (fanOutCap : ℕ) (m : InMemoryMessageStore) : DecidablePred (Regular fanOutCap m) :=
  fun c => by cases c <;> dsimp only [Regular] <;> infer_instance

/-- Every call of a sequence has a property, at the state in which it is made. -/
def Along (P : InMemoryMessageStore → LedgerCall → Prop) :
    InMemoryMessageStore → List LedgerCall → Prop
  | _, [] => True
  | m, c :: calls => P m c ∧ Along P (c.inMemory m).2 calls

instance Along.decidable (P : InMemoryMessageStore → LedgerCall → Prop)
    [∀ m c, Decidable (P m c)] :
    (m : InMemoryMessageStore) → (calls : List LedgerCall) → Decidable (Along P m calls)
  | _, [] => isTrue trivial
  | m, c :: calls =>
    have := Along.decidable P (c.inMemory m).2 calls
    inferInstanceAs (Decidable (P m c ∧ Along P (c.inMemory m).2 calls))

end LedgerCall

lemma Delivery.Fresh.ownerWhole {d : Delivery} (h : d.Fresh) : d.OwnerWhole := by
  intro _ _
  rw [h]
  exact ⟨rfl, rfl⟩

namespace Cluster

variable {ι : Type} [DecidableEq ι] {i : ι} {s : Cluster ι} {m : InMemoryMessageStore}

/-- The process is alone, and the tables show what the adapter in memory holds. -/
structure Paired (i : ι) (m : InMemoryMessageStore) (s : Cluster ι) : Prop where
  alone : Alone i s
  reflects : Reflects m (s.tables i)

/-- **One call.**  Both adapters give the same answer and stay paired. -/
lemma does_call {fanOutCap : ℕ} {c : LedgerCall} (h : Paired i m s) (hscope : c.InScope m)
    (hregular : c.Regular fanOutCap m) :
    Does i (c.mySQL fanOutCap)
      (fun a s1 => (c.inMemory m).1.Agree a ∧ Paired i (c.inMemory m).2 s1) s := by
  obtain ⟨halone, hreflects⟩ := h
  cases c with
  | getOrCreateConversation sender cmd =>
    obtain ⟨hid, hafter⟩ := hreflects.getOrCreateConversation hscope
    refine Does.bind (does_getOrCreateConversation hregular halone fun s1 hopen htables => ?_)
    exact ⟨.of_eq (congrArg LedgerAnswer.conversation hid), .inr hopen, htables ▸ hafter⟩
  | insertMessage draft =>
    obtain ⟨hsender, hconv⟩ := hscope
    refine Does.bind (does_insertMessage halone (hreflects.last hconv)
      (hreflects.vacant hsender hregular) fun s1 halone1 htables => ?_)
    exact ⟨.of_eq (congrArg LedgerAnswer.message hreflects.accepted_eq.symm), halone1,
      htables ▸ hreflects.insertMessage hconv hsender hregular⟩
  | insertDelivery d =>
    have hfresh : m.row d.key = none → d.Fresh ∧ m.Fits d := fun hnone =>
      ⟨(hregular hnone).1, hscope, (hregular hnone).1.ownerWhole, (hregular hnone).2⟩
    refine Does.bind (does_insertDelivery halone fun s1 halone1 htables => ?_)
    exact ⟨.of_eq rfl, halone1, htables ▸ hreflects.insertDelivery hscope.recipient hfresh⟩
  | updateDelivery d =>
    have hfits : (m.row d.key).isSome → m.Fits d := fun hsome =>
      ⟨hscope, (hregular hsome).1, (hregular hsome).2⟩
    refine Does.bind (does_updateDelivery halone fun s1 halone1 htables => ?_)
    exact ⟨.of_eq rfl, halone1, htables ▸ hreflects.updateDelivery hscope.recipient hfits⟩
  | deliveriesByRecipient u =>
    refine Does.bind (does_deliveriesWhere halone fun order s1 halone1 htables => ?_)
    obtain ⟨ds, hds, hsame⟩ := hreflects.deliveriesByRecipient hscope hregular order
    exact ⟨ds, hds, ⟨rfl, hsame⟩, halone1, htables ▸ hreflects⟩
  | deliveriesDueForRetry nowMs limit =>
    obtain ⟨hseconds, hlimit⟩ := hscope
    obtain ⟨n, -, rfl⟩ := hseconds.exists_eq
    refine Does.bind (does_deliveriesWhere halone fun order s1 halone1 htables => ?_)
    rw [tdiv_thousand]
    obtain ⟨ds, hds, hsame⟩ := hreflects.deliveriesDueForRetry hlimit hregular order
    exact ⟨ds, hds, ⟨rfl, hsame⟩, halone1, htables ▸ hreflects⟩
  | expireDeliveries nowMs limit =>
    obtain ⟨hseconds, hlimit⟩ := hscope
    obtain ⟨n, -, rfl⟩ := hseconds.exists_eq
    refine Does.bind (does_expireDeliveries halone fun order s1 halone1 htables => ?_)
    rw [tdiv_thousand] at htables ⊢
    obtain ⟨hcount, hafter⟩ := hreflects.expireDeliveries hlimit order
    exact ⟨.of_eq (congrArg LedgerAnswer.count hcount.symm), halone1, htables ▸ hafter⟩
  | cleanupDeliveries ackedBeforeMs expiredBeforeMs limit =>
    obtain ⟨hacked, hexpired, hlimit, hlimit'⟩ := hscope
    obtain ⟨hackedAt, hexpiredAt⟩ := hregular
    obtain ⟨a, ha, rfl⟩ := hacked.exists_eq
    obtain ⟨b, hb, rfl⟩ := hexpired.exists_eq
    refine Does.bind (does_cleanupDeliveries halone fun order order' s1 halone1 htables => ?_)
    rw [tdiv_thousand_up ha, tdiv_thousand_up hb] at htables ⊢
    obtain ⟨hcount, hafter⟩ := hreflects.cleanupDeliveries
      (fun {k d} hk hd => hackedAt d (mem_rowsWith.2 ⟨⟨k, hk⟩, decide_eq_true hd⟩))
      (fun {k d} hk hd => hexpiredAt d (mem_rowsWith.2 ⟨⟨k, hk⟩, decide_eq_true hd⟩))
      hlimit hlimit' order order'
    exact ⟨.of_eq (congrArg LedgerAnswer.count hcount.symm), halone1, htables ▸ hafter⟩

lemma does_calls {fanOutCap : ℕ} {calls : List LedgerCall} (h : Paired i m s)
    (hscope : LedgerCall.Along LedgerCall.InScope m calls)
    (hregular : LedgerCall.Along (LedgerCall.Regular fanOutCap) m calls) :
    Does i (LedgerCall.mySQLRun fanOutCap calls)
      (fun answers _ => List.Forall₂ LedgerAnswer.Agree (LedgerCall.inMemoryRun m calls) answers)
      s := by
  induction calls generalizing m s with
  | nil => exact List.Forall₂.nil
  | cons c calls ih =>
    refine Does.bind ((does_call h hscope.1 hregular.1).mono ?_)
    rintro a s1 ⟨hagree, hpaired⟩
    refine Does.bind ((ih hpaired hscope.2 hregular.2).mono fun answers s2 hanswers => ?_)
    exact List.Forall₂.cons hagree hanswers

end Cluster

/-- **The two adapters of the ledger agree at second granularity** on every sequence of calls in
which no call meets a point in which they differ: the program of the MySQL adapter comes to an end
on an empty database, and its answers are those that are given in memory. -/
theorem ledger_adapters_agree {ι : Type} [DecidableEq ι] (i : ι) (fanOutCap : ℕ)
    (calls : List LedgerCall) (ωs : List ClusterEnv) (hreliable : ∀ ω ∈ ωs, ω.Reliable)
    (hscope : LedgerCall.Along LedgerCall.InScope {} calls)
    (hregular : LedgerCall.Along (LedgerCall.Regular fanOutCap) {} calls) :
    ∃ answers s, (LedgerCall.mySQLRun fanOutCap calls).eval (Cluster.handleWire i) ωs
        ({} : Cluster ι) = some (.ok answers, s) ∧
      List.Forall₂ LedgerAnswer.Agree (LedgerCall.inMemoryRun {} calls) answers := by
  have hpaired : Cluster.Paired i {} ({} : Cluster ι) :=
    ⟨.inl ⟨rfl, rfl⟩, Reflects.empty⟩
  exact Prog.Completes.eval ClusterEnv.reliable_default
    (Cluster.does_calls hpaired hscope hregular) hreliable

namespace TwoLetters

/-- User 1 writes to user 2 under a key. -/
def letter (key : String) (hkey : ClientMessageId.isValid key = true) : Message where
  conversationId := ⟨1⟩
  senderId := ⟨1⟩
  command := { clientMessageId := ⟨key, hkey⟩, directRecipient := ⟨2⟩, content := "hi" }

/-- The row of a message to user 2. -/
def pendingRow (messageId : ℕ) : Delivery where
  messageId := ⟨messageId⟩
  conversationId := ⟨1⟩
  recipient := ⟨2⟩
  expiresAtMs := 90000

/-- The row of the first message after it has been sent. -/
def sentRow : Delivery :=
  { pendingRow 1 with
    sequence := ⟨1⟩, state := .inFlight, leaseOwner := ⟨⟨2⟩, 1⟩, leaseBootId := 7
    leaseUntilMs := 31000, attemptCount := 1, lastSentAtMs := 1000, nextAttemptAtMs := 31000 }

/-- The row of the first message after it has been acknowledged. -/
def ackedRow : Delivery := { sentRow with state := .acknowledged, acknowledgedAtMs := 5000 }

/-- Two messages are accepted, and the first one is sent. -/
def calls : List LedgerCall :=
  [.getOrCreateConversation ⟨⟨1⟩, 1⟩ (letter "a" rfl).command, .insertMessage (letter "a" rfl),
    .insertDelivery (pendingRow 1), .insertMessage (letter "b" rfl),
    .insertDelivery (pendingRow 2), .updateDelivery sentRow]

/-- Then both expire and are removed. -/
def removed : List LedgerCall :=
  calls ++ [.deliveriesDueForRetry 31000 9, .expireDeliveries 91000 9,
    .deliveriesByRecipient ⟨2⟩, .cleanupDeliveries 91000 91000 9]

/-- The rows are read while the second message is waiting. -/
def waiting : List LedgerCall := calls ++ [.deliveriesByRecipient ⟨2⟩]

/-- The first message is acknowledged, and its row stands exactly at the cutoff of a cleanup. -/
def atCutoff : List LedgerCall :=
  calls ++ [.updateDelivery ackedRow, .cleanupDeliveries 5000 5000 9]

end TwoLetters

theorem ledger_adapters_agree_removed :
    (LedgerCall.Along LedgerCall.InScope {} TwoLetters.removed ∧
        LedgerCall.Along (LedgerCall.Regular 200) {} TwoLetters.removed) ∧
      ∃ answers s, (LedgerCall.mySQLRun 200 TwoLetters.removed).eval (Cluster.handleWire ()) []
          ({} : Cluster Unit) = some (.ok answers, s) ∧
        List.Forall₂ LedgerAnswer.Agree (LedgerCall.inMemoryRun {} TwoLetters.removed) answers := by
  have hscope : LedgerCall.Along LedgerCall.InScope {} TwoLetters.removed := by decide +kernel
  have hregular : LedgerCall.Along (LedgerCall.Regular 200) {} TwoLetters.removed := by
    decide +kernel
  exact ⟨⟨hscope, hregular⟩, ledger_adapters_agree () 200 _ [] (by simp) hscope hregular⟩

/-- The answers that the MySQL adapter gives, if it gives any. -/
def LedgerCall.answersOf (r : Option (Except Fault (List LedgerAnswer) × Cluster Unit)) :
    Option (List LedgerAnswer) :=
  r.bind fun e => e.1.toOption

lemma LedgerCall.eq_some_of_answersOf
    {r : Option (Except Fault (List LedgerAnswer) × Cluster Unit)}
    {P : List LedgerAnswer → Prop} [DecidablePred P] (h : (answersOf r).any (fun a => P a) = true) :
    ∃ answers s, r = some (.ok answers, s) ∧ P answers := by
  match r with
  | none => cases h
  | some (.error e, s) => cases h
  | some (.ok answers, s) => exact ⟨answers, s, rfl, by simpa [answersOf, Except.toOption] using h⟩

/-- On calls inside the scope the MySQL adapter gives answers, and not those in memory. -/
def LedgerCall.Differ (calls : List LedgerCall) : Prop :=
  Along InScope {} calls ∧
    ∃ answers s, (mySQLRun 200 calls).eval (Cluster.handleWire ()) [] ({} : Cluster Unit) =
        some (.ok answers, s) ∧
      ¬List.Forall₂ LedgerAnswer.Agree (inMemoryRun {} calls) answers

/-- Read from the database, the row that is waiting has the lease owner of the row that was sent.
And the row at the cutoff is removed in memory only. -/
theorem ledger_adapters_differ :
    LedgerCall.Differ TwoLetters.waiting ∧ LedgerCall.Differ TwoLetters.atCutoff := by
  refine ⟨⟨by decide +kernel, ?_⟩, by decide +kernel, ?_⟩
  · exact LedgerCall.eq_some_of_answersOf (by decide +kernel)
  · exact LedgerCall.eq_some_of_answersOf (by decide +kernel)

end MuduoChat
