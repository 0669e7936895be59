import MuduoChat.Gateway.CoordinatorSpec

/-!
# The operations of reliable messaging and what they achieve

Accepting a command, the tick, and the operations that are built from those of the
coordinator.  Accepting ends in one of three ways: a new message, the repetition of an old
one, or a conflict (`AcceptPost`).
-/

namespace MuduoChat

open Std Coordinator ReliableMessaging Prog InMemoryMessageStore

/-! ### The three ways in which accepting ends -/

/-- A message has been added under a key that was free, with a row for each recipient. -/
structure Created (s s' : InMemoryMessageStore) (sender : UserId) (cmd : SendMessageCommand)
    (m : Message) : Prop where
  sender : m.senderId = sender
  command : m.command = cmd
  id : m.id.value = s.nextMessageId
  next : s'.nextMessageId = s.nextMessageId + 1
  messages : ∀ j, s'.findMessage j = if j = m.id then some m else s.findMessage j
  accepted : ∀ key, s'.acceptedUnder key = if m.key = key then some m else s.acceptedUnder key
  rows : ∀ k : DeliveryKey, k.messageId = m.id.value →
    ((s'.row k).isSome ↔ ∃ u ∈ recipientsFor cmd, u.value = k.recipient)

/-- How accepting a command takes a store to another one and what it answers. -/
inductive AcceptPost (s s' : InMemoryMessageStore) (sender : SessionIdentity)
    (cmd : SendMessageCommand) : AcceptOutcome → Prop
  | again {m : Message} (hfound : s.findAccepted cmd.clientMessageId sender.userId = some m)
      (hsame : samePayload m.command cmd = true) (hrows : OnlyRows s s') :
      AcceptPost s s' sender cmd (outcomeOf m true)
  | conflict {m : Message} (hfound : s.findAccepted cmd.clientMessageId sender.userId = some m)
      (hdiffer : samePayload m.command cmd = false) (hrows : OnlyRows s s') :
      AcceptPost s s' sender cmd conflictOutcome
  | created {m : Message} (hfree : s.findAccepted cmd.clientMessageId sender.userId = none)
      (hnew : Created s s' sender.userId cmd m) :
      AcceptPost s s' sender cmd (outcomeOf m false)

variable {ι : Type}

/-- Nothing but metrics has been recorded. -/
def World.Quiet (w w' : World ι) : Prop := ∃ ms, w' = { w with metrics := ms }

variable [DecidableEq ι] {S : Setup ι} {i : ι} {op : Op} {start w : World ι}

/-! ### Recording -/

section Recording

variable {I : World ι → Prop} {hangs : Prop} {allow : Call → World ι → Prop}

lemma recordEach_quiet {τ : Type} (hrecord : ∀ e w, allow (.record e) w) (e : τ → MetricEvent)
    (xs : List τ) :
    Sat (World.under I hangs i allow) (Returns fun _ w1 => w.Quiet w1)
      (Prog.forEach (fun x => Code.record (e x)) xs) w := by
  refine sat_forEach (P := fun _ w1 => w.Quiet w1) (fun x xs w1 h1 => ?_) xs ⟨_, rfl⟩
  obtain ⟨ms, rfl⟩ := h1
  exact sat_of_bind_ret (sat_record fun _ => ⟨hrecord _ _, sat_ret fun _ => ⟨_, rfl⟩⟩)

lemma recordAccepted_quiet (hrecord : ∀ e w, allow (.record e) w) (draft accepted : Message)
    (recipients : List UserId) :
    Sat (World.under I hangs i allow) (Returns fun _ w1 => w.Quiet w1)
      (recordAccepted draft accepted recipients) w := by
  refine sat_record fun _ => ⟨hrecord _ _, sat_record fun _ => ⟨hrecord _ _, ?_⟩⟩
  refine sat_bind (P := fun _ w1 => w.Quiet w1) (Sat.returns_when (fun _ => ?_) fun _ => ?_) ?_
  · exact sat_of_bind_ret (sat_record fun _ => ⟨hrecord _ _, sat_ret fun _ => ⟨_, rfl⟩⟩)
  · exact sat_ret fun _ => ⟨_, rfl⟩
  · rintro _ w1 _ ⟨ms, rfl⟩
    refine (recordEach_quiet hrecord _ _).returns_mono fun _ w2 _ h2 => ?_
    obtain ⟨ms', rfl⟩ := h2
    exact ⟨_, rfl⟩

lemma recordExpired_quiet (hrecord : ∀ e w, allow (.record e) w)
    (expired : List ExpiredDeliveryRecord) :
    Sat (World.under I hangs i allow) (Returns fun _ w1 => w.Quiet w1)
      (recordExpired expired) w := by
  refine sat_forEach (P := fun _ w1 => w.Quiet w1) (fun x xs w1 h1 => ?_) expired ⟨_, rfl⟩
  obtain ⟨ms, rfl⟩ := h1
  refine sat_record fun _ => ⟨hrecord _ _, sat_of_bind_ret (sat_record fun _ => ⟨hrecord _ _, ?_⟩)⟩
  exact sat_ret fun _ => ⟨_, rfl⟩

end Recording

/-! ### The tick -/

lemma cleanup_op (hop : op.ticks = true) :
    Sat (S.under i (Timely S i op start)) (Returns fun _ w1 => w1.clock = w.clock)
      ((S.messaging i).cleanup w.clock) w := by
  refine sat_load fun _ => ⟨⟨trivial, trivial⟩, sat_ite (fun _ => ?_) fun _ => sat_ret fun _ => rfl⟩
  refine sat_save fun _ => ⟨⟨trivial, trivial⟩, sat_store fun _ => ⟨⟨⟨hop, rfl, rfl⟩, trivial⟩, ?_⟩⟩
  exact sat_ret fun _ => rfl

theorem runTick_op (hop : op.ticks = true) :
    Sat (S.under i (Timely S i op start)) (Returns fun _ _ => True)
      ((S.messaging i).runTick) w := by
  refine sat_nowMs fun _ => ⟨⟨trivial, trivial⟩, fun now => ?_⟩
  refine sat_store fun _ => ⟨⟨⟨hop, rfl⟩, trivial⟩, ?_⟩
  refine sat_bind (recordExpired_quiet (fun _ _ => ⟨trivial, trivial⟩) _) fun _ w1 _ h1 => ?_
  have hclock1 : w1.clock = now := by
    obtain ⟨ms, rfl⟩ := h1
    rfl
  rw [← hclock1]
  refine sat_bind (cleanup_op hop) fun _ w2 _ hclock2 => ?_
  rw [← hclock2]
  refine sat_bind (runRetryScan_op hop) fun nextAttempts w3 _ _ => ?_
  exact sat_store fun _ => ⟨⟨trivial, trivial⟩, sat_ret fun _ => trivial⟩

theorem sessionAvailable_op (session : SessionIdentity) :
    Sat (S.under i (Timely S i (.sessionAvailable session) start)) (Returns fun _ _ => True)
      (ReliableMessaging.sessionAvailable (S.messaging i) session) w := by
  refine sat_bind (sessionAvailable_coordinator_op session) fun _ w1 _ _ => ?_
  refine sat_bind (P := fun _ _ => True) ?_ fun _ _ _ _ => sat_ret fun _ => trivial
  exact Sat.returns_tryCatch (fun _ => rfl) (runTick_op rfl)

/-! ### Accepting -/

lemma notifyAcceptedBestEffort_op (recipients : List UserId) :
    Sat (S.under i (Timely S i op start)) (Returns fun _ w1 => w.OnlyRows w1)
      ((S.messaging i).notifyAcceptedBestEffort recipients) w :=
  Sat.returns_tryCatch (fun _ => rfl) (onAccepted_op recipients)

/-- The rows of a message that has just been written: those of the recipients that have been
gone through so far. -/
structure Inserting (s : InMemoryMessageStore) (m : Message) (done : List UserId)
    (s' : InMemoryMessageStore) : Prop where
  rest : s' = { s with deliveries := s'.deliveries }
  rows : ∀ k : DeliveryKey, k.messageId = m.id.value →
    ((s'.row k).isSome ↔ ∃ u ∈ done, u.value = k.recipient)

lemma Inserting.insertDelivery {s s' : InMemoryMessageStore} {m : Message} {done : List UserId}
    (h : Inserting s m done s') (expiresAtMs : ℤ) (u : UserId) :
    Inserting s m (done ++ [u]) (s'.insertDelivery (newDelivery m expiresAtMs u)) := by
  refine ⟨?_, fun k hk => ?_⟩
  · rw [h.rest]
    rfl
  · rw [row_insertDelivery]
    have hkey : (newDelivery m expiresAtMs u).key = k ↔ u.value = k.recipient := by
      simp [newDelivery, Delivery.key, DeliveryKey.ext_iff, hk]
    by_cases hu : u.value = k.recipient
    · obtain rfl := hkey.2 hu
      cases hrow : s'.row (newDelivery m expiresAtMs u).key <;> simp [newDelivery, Delivery.key]
    · simp [hkey, hu, h.rows k hk]

lemma inserting_insertMessage {s : InMemoryMessageStore} (hs : s.Messages) (hrows : s.Rows)
    (draft : Message) : Inserting (s.insertMessage draft).2 (s.accepted draft) []
      (s.insertMessage draft).2 := by
  refine ⟨rfl, fun k hk => ?_⟩
  have hrow : (s.insertMessage draft).2.row k = s.row k := rfl
  suffices hnone : s.row k = none by simp [hrow, hnone]
  by_contra hne
  obtain ⟨d, hd⟩ := Option.ne_none_iff_exists'.1 hne
  obtain ⟨m, hm, -⟩ := hrows.message hd
  have hid : d.messageId.value = s.nextMessageId := by
    rw [← hrows.key_eq hd] at hk
    exact hk
  exact absurd (hs.id_lt hm) (by omega)

lemma insertDeliveries_op (hop : op.accepts = true) (m : Message)
    (hm : w.store.findMessage m.id = some m)
    (hlast : m.sequence.value = w.store.lastSequence m.conversationId)
    (hnew : start.store.nextMessageId ≤ m.id.value)
    (hstart : Inserting w.store m [] w.store) {expiresAtMs : ℤ}
    (hexpires : expiresAtMs = w.clock + S.config.messageRetentionMs) :
    Sat (S.under i (Timely S i op start))
      (Returns fun _ w1 => Inserting w.store m (recipientsFor m.command) w1.store ∧
        w1.queried = w.queried)
      (Prog.forEach (fun u => Code.store (.insertDelivery (newDelivery m expiresAtMs u)))
        (recipientsFor m.command)) w := by
  refine (sat_forEach
    (P := fun todo w1 => w1.clock = w.clock ∧ w1.queried = w.queried ∧
      ∃ done, done ++ todo = recipientsFor m.command ∧ Inserting w.store m done w1.store)
    ?_ _ ⟨rfl, rfl, [], rfl, hstart⟩).returns_mono ?_
  · rintro u todo w1 ⟨hclock, hqueried, done, hdone, h1⟩
    refine sat_of_bind_ret (sat_store fun _ => ⟨⟨⟨hop, m, u, ?_, ?_, ?_, ?_⟩, hnew⟩, ?_⟩)
    · rw [h1.rest]
      exact hm
    · rw [← hdone]
      simp
    · rw [h1.rest]
      exact hlast
    · rw [hclock, hexpires]
    · exact sat_ret fun _ => ⟨hclock, hqueried, done ++ [u], by rw [← hdone]; simp,
        h1.insertDelivery _ u⟩
  · rintro - w1 - ⟨-, hqueried, done, hdone, h1⟩
    rw [List.append_nil] at hdone
    exact ⟨hdone ▸ h1, hqueried⟩

lemma created_of_inserting {s s1 s2 s3 : InMemoryMessageStore} {draft : Message}
    (hs : s.Messages) (hsame : s.SameMessages s1) (hnew : s.acceptedUnder draft.key = none)
    (hins : Inserting (s1.insertMessage draft).2 (s1.accepted draft)
      (recipientsFor draft.command) s2)
    (hrows : s2.OnlyRows s3) :
    Created s s3 draft.senderId draft.command (s1.accepted draft) where
  sender := rfl
  command := rfl
  id := hsame.nextMessageId
  next := by
    rw [hrows.rest, hins.rest]
    exact congrArg (· + 1) hsame.nextMessageId
  messages j := by
    rw [hrows.rest, hins.rest]
    rw [← hsame.findMessage]
    exact findMessage_insertMessage (hs.congr hsame) j
  accepted key := by
    rw [hrows.rest, hins.rest]
    rw [← hsame.acceptedUnder] at hnew ⊢
    exact acceptedUnder_insertMessage hnew key
  rows k hk := by
    rw [hrows.present k]
    exact hins.rows k hk

lemma acceptNew_op (hop : op.accepts = true) (sender : SessionIdentity)
    (cmd : SendMessageCommand) (hstart : start.store.nextMessageId ≤ w.store.nextMessageId)
    (hfree : w.store.findAccepted cmd.clientMessageId sender.userId = none) :
    Sat (S.under i (Timely S i op start))
      (Returns fun o w1 => AcceptPost w.store w1.store sender cmd o ∧ w1.queried = w.queried)
      ((S.messaging i).acceptNew sender cmd) w := by
  refine sat_store fun hw => ⟨⟨hop, trivial⟩, ?_⟩
  have hsame := w.store.sameMessages_getOrCreateConversation sender cmd
  generalize hconv : w.store.answer (.getOrCreateConversation sender cmd) = c
  obtain ⟨conversationId, s1⟩ := c
  have hs1 : s1 = (w.store.getOrCreateConversation sender cmd).2 := (congrArg Prod.snd hconv).symm
  rw [← hs1] at hsame
  refine sat_nowMs fun _ => ⟨⟨trivial, trivial⟩, fun acceptedAtMs => ?_⟩
  let draft : Message :=
    { senderId := sender.userId, command := cmd, conversationId, acceptedAtMs }
  refine sat_store fun hw1 => ⟨⟨⟨hop, (hsame.acceptedUnder _).trans hfree⟩, trivial⟩, ?_⟩
  refine sat_nowMs fun _ => ⟨⟨trivial, trivial⟩, fun now => ?_⟩
  refine sat_bind (insertDeliveries_op hop (s1.accepted draft) ?_ ?_ ?_ ?_ rfl) fun _ w2 _ h2 => ?_
  · exact (findMessage_insertMessage hw1.messages _).trans (if_pos rfl)
  · exact ((lastSequence_insertMessage _).trans (if_pos rfl)).symm
  · exact hstart.trans hsame.nextMessageId.ge
  · exact inserting_insertMessage hw1.messages hw1.rows draft
  refine sat_bind (recordAccepted_quiet (fun _ _ => ⟨trivial, trivial⟩) _ _ _) fun _ w3 _ h3 => ?_
  obtain ⟨ms, rfl⟩ := h3
  refine sat_bind (notifyAcceptedBestEffort_op _) fun _ w4 _ h4 => sat_ret fun _ => ?_
  have hcreated : Created w.store w4.store draft.senderId draft.command (s1.accepted draft) :=
    created_of_inserting hw.messages hsame hfree h2.1 h4.store
  exact ⟨.created hfree hcreated, h4.queried.trans h2.2⟩

/-- **Accepting a command** ends, without an exception, in one of the three ways. -/
theorem accept_op (hop : op.accepts = true) (sender : SessionIdentity) (cmd : SendMessageCommand)
    (hstart : start.store.nextMessageId ≤ w.store.nextMessageId) :
    Sat (S.under i (Timely S i op start))
      (Returns fun o w1 => AcceptPost w.store w1.store sender cmd o ∧ w1.queried = w.queried)
      ((S.messaging i).accept sender cmd) w := by
  refine sat_store fun _ => ⟨⟨trivial, trivial⟩, ?_⟩
  have hanswer : (w.store.answer (.findAccepted cmd.clientMessageId sender.userId)).1 =
      w.store.findAccepted cmd.clientMessageId sender.userId := rfl
  rw [hanswer]
  cases hfound : w.store.findAccepted cmd.clientMessageId sender.userId with
  | none => exact Sat.returns_tryCatch (fun _ => rfl) (acceptNew_op hop sender cmd hstart hfound)
  | some m =>
    refine sat_ite (fun hsame => ?_) fun hdiffer => ?_
    · refine sat_record fun _ => ⟨⟨trivial, trivial⟩, ?_⟩
      refine sat_bind (notifyAcceptedBestEffort_op _) fun _ w1 _ h1 => sat_ret fun _ => ?_
      exact ⟨.again hfound hsame h1.store, h1.queried⟩
    · refine sat_record fun _ => ⟨⟨trivial, trivial⟩, sat_ret fun _ => ⟨?_, rfl⟩⟩
      exact .conflict hfound (by simpa using hdiffer) (.refl _)

end MuduoChat
