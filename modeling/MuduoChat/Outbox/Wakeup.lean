import MuduoChat.Gateway.FixedSink
import MuduoChat.Outbox.Port

/-!
# Wakeups from the event stream

The handler of consumed events.  It turns an event back into a wakeup: it claims for the
recipients of the message and tells from the rows of the message before and after whether a
delivery has moved on.  An event whose message is missing is kept as a dead letter.

A consumer may hand the same event on several times.  The second time nothing happens: after the
first wakeup there is nothing left to claim for any of the recipients.
-/

namespace MuduoChat

open Std Coordinator Prog InMemoryMessageStore World

/-! ### The handler -/

/-- The calls of the handler: those of a process, and the one that keeps a dead letter. -/
inductive WakeupCall where
  | port (c : Call)
  | recordDeadLetter (r : DeadLetterRecord)

def WakeupCall.Value : WakeupCall → Type
  | .port c => c.Value
  | .recordDeadLetter _ => Unit

/-- The interface of the handler. -/
def WakeupPort : Sig := ⟨WakeupCall, WakeupCall.Value, Fault⟩

/-- The programs of the handler. -/
abbrev WakeupCode (α : Type) := Prog WakeupPort α

/-- A program of the process, as a part of the handler. -/
def WakeupCode.port {α : Type} : Code α → WakeupCode α
  | .ret a => .ret a
  | .fail e => .fail e
  | .hang => .hang
  | .call c k => .call (E := WakeupPort) (.port c) fun r => WakeupCode.port (k r)

def outboxRecipientsFor (cmd : SendMessageCommand) : List UserId :=
  match cmd.kind with
  | .direct => [cmd.directRecipient]
  | .group => cmd.members

namespace WakeupProgressHandler

/-- A row has moved on: its state or the number of its attempts has changed, or there are other
rows than before. -/
def progressed (before after : List Delivery) : Bool :=
  if before.length ≠ after.length then
    true
  else
    let snapshot : TreeMap ℕ (DeliveryState × ℕ) := before.foldl
      (fun snapshot d => snapshot.insert d.recipient.value (d.state, d.attemptCount)) ∅
    after.any fun d =>
      match snapshot[d.recipient.value]? with
      | none => true
      | some (state, attempts) => state ≠ d.state || attempts ≠ d.attemptCount

/-- The envelope of an event, as far as it can be made again from its fields. -/
def rebuildEnvelope (record : ConsumedOutboxRecord) : String :=
  "\x7b\"message_id\":" ++ toString record.messageId ++
    ",\"conversation_id\":" ++ toString record.conversationId ++
    ",\"sequence\":" ++ toString record.sequence ++
    ",\"event_type\":\"" ++ record.eventType ++ "\",\"payload\":" ++ record.payload ++ "\x7d"

/-- The dead letter for an event whose message is missing. -/
def deadLetter (record : ConsumedOutboxRecord) : DeadLetterRecord :=
  { topic := record.topic
    partitionId := record.partition
    kafkaOffset := record.offset
    messageId := record.messageId
    conversationId := record.conversationId
    sequence := record.sequence
    eventType := record.eventType
    reason := "message_missing"
    rawValue := rebuildEnvelope record }

/-- Wake the recipients of a message, and compare its rows with those before. -/
def wakeAndCompare (rm : ReliableMessaging) (msg : Message) (messageId : MessageId)
    (before : List Delivery) : WakeupCode ConsumeDisposition := do
  WakeupCode.port (rm.wakeupAccepted (outboxRecipientsFor msg.command))
  let after ← WakeupCode.port (Code.store (.deliveriesByMessage messageId))
  pure (if progressed before after then .advanced else .duplicateNoOp)

def handle (rm : ReliableMessaging) (record : ConsumedOutboxRecord) :
    WakeupCode ConsumeDisposition := do
  match ← WakeupCode.port (Code.store (.findMessage ⟨record.messageId⟩)) with
  | none => do
      Prog.ask (E := WakeupPort) (.recordDeadLetter (deadLetter record))
      pure .deadLettered
  | some msg => do
      let before ← WakeupCode.port (Code.store (.deliveriesByMessage ⟨record.messageId⟩))
      wakeAndCompare rm msg ⟨record.messageId⟩ before

end WakeupProgressHandler

/-- How the calls of the handler are answered. -/
def World.wakeup {ι : Type} [DecidableEq ι] (now : ℤ)
    (sink : DeliveryAttempt → DeliverDisposition) (i : ι) : Handler WakeupPort (World ι) Env
  | .port c, ω, w => World.fixed now sink i c ω w
  | .recordDeadLetter r, _, w => some (.ok (), { w with store := w.store.recordDeadLetter r })

/-! ### Comparing the rows of a message -/

lemma getElem?_foldl_insert_of_mem {α β : Type} (key : α → ℕ) {value : α → β} {l : List α}
    (hl : (l.map key).Nodup) {a : α} (ha : a ∈ l) (m : TreeMap ℕ β) :
    (l.foldl (fun m a => m.insert (key a) (value a)) m)[key a]? = some (value a) := by
  induction l generalizing m with
  | nil => simp at ha
  | cons b l ih =>
    obtain ⟨hb, hl⟩ := List.nodup_cons.1 hl
    rcases List.mem_cons.1 ha with rfl | ha
    · -- nothing behind has the key again
      have hkeep : ∀ (l : List α) (m : TreeMap ℕ β), key a ∉ l.map key →
          (l.foldl (fun m a => m.insert (key a) (value a)) m)[key a]? = m[key a]? := by
        intro l
        induction l with
        | nil => exact fun _ _ => rfl
        | cons c l ih' =>
          intro m hc
          simp only [List.map_cons, List.mem_cons, not_or] at hc
          rw [List.foldl_cons, ih' _ hc.2, OrderedMap.getElem?_insert_of_ne _ _ (Ne.symm hc.1)]
      rw [List.foldl_cons, hkeep l _ hb, OrderedMap.getElem?_insert_self]
    · exact ih hl ha _

lemma progressed_self {rows : List Delivery}
    (hrows : (rows.map fun d => d.recipient.value).Nodup) :
    WakeupProgressHandler.progressed rows rows = false := by
  unfold WakeupProgressHandler.progressed
  rw [if_neg (by simp), List.any_eq_false]
  intro d hd
  rw [getElem?_foldl_insert_of_mem (fun d : Delivery => d.recipient.value) hrows hd]
  simp

lemma nodup_recipient_deliveriesByMessage {s : InMemoryMessageStore} (hs : s.Keyed)
    (m : MessageId) : ((s.deliveriesByMessage m).map fun d => d.recipient.value).Nodup := by
  have hkeys : (s.deliveriesByMessage m).map Delivery.key =
      ((s.deliveries.toList.filter fun e => e.2.messageId.value = m.value).map Prod.fst) := by
    unfold deliveriesByMessage
    rw [List.map_map, List.filter_map, List.map_map]
    refine List.map_congr_left fun e he => ?_
    have hkey := hs _ _ (OrderedMap.mem_toList.1 (List.mem_filter.1 he).1)
    simpa using hkey
  have hnodup : ((s.deliveriesByMessage m).map Delivery.key).Nodup := by
    rw [hkeys]
    exact (OrderedMap.nodup_keys_toList _).sublist (List.filter_sublist.map Prod.fst)
  -- the message is the same, so the recipient makes up the key
  refine List.Nodup.of_map (fun r : ℕ => (⟨m.value, r⟩ : DeliveryKey)) ?_
  rw [List.map_map]
  have hsame : (s.deliveriesByMessage m).map
      ((fun r : ℕ => (⟨m.value, r⟩ : DeliveryKey)) ∘ fun d => d.recipient.value) =
      (s.deliveriesByMessage m).map Delivery.key := by
    refine List.map_congr_left fun d hd => ?_
    obtain ⟨k, cur, -, hm, rfl⟩ := mem_deliveriesByMessage.1 hd
    have hmessage : (s.fillSequence cur).messageId = m := by
      rw [s.fillSequence_eq cur]
      exact hm
    simp [Delivery.key, hmessage]
  rw [hsame]
  exact hnodup

/-! ### The first time -/

section Undisturbed

variable {ι : Type} {i : ι} {w w₁ : World ι}

/-- What a wakeup leaves as it is: everything but the contents of delivery rows, and the sessions
that are active and paused. -/
structure Undisturbed (i : ι) (w w₁ : World ι) : Prop where
  store : w.store.OnlyRows w₁.store
  keyed : w₁.store.Keyed
  active : (w₁.process i).activeByUser = (w.process i).activeByUser
  paused : (w₁.process i).paused = (w.process i).paused

lemma Undisturbed.trans {w2 : World ι} (h : Undisturbed i w w₁) (h' : Undisturbed i w₁ w2) :
    Undisturbed i w w2 :=
  ⟨h.store.trans h'.store, h'.keyed, h'.active.trans h.active, h'.paused.trans h.paused⟩

lemma Undisturbed.findMessage (h : Undisturbed i w w₁) :
    w₁.store.findMessage = w.store.findMessage := by
  funext m
  unfold InMemoryMessageStore.findMessage
  rw [h.store.rest]

end Undisturbed

section Replay

variable {ι : Type} [DecidableEq ι] {now : ℤ} {i : ι} {rm : ReliableMessaging} {w w₁ : World ι}
  {recipients : List UserId}

/-- The sink that accepts every attempt. -/
abbrev accepting : DeliveryAttempt → DeliverDisposition := fun _ => .accepted

abbrev World.claiming (w : World ι) (rm : ReliableMessaging) (now : ℤ)
    (session : SessionIdentity) : Claiming :=
  ⟨rm, session, now, w.store.findMessage, accepting⟩

/-- There is nothing to claim for the active session of a user: there is none, or it is paused, or
nothing of its user can be claimed. -/
def World.Woken (w : World ι) (rm : ReliableMessaging) (now : ℤ) (i : ι) (u : UserId) : Prop :=
  ∀ session, (w.process i).activeByUser[u]? = some session →
    session ∈ (w.process i).paused ∨
      (w.claiming rm now session).Settled (w.store.deliveriesByRecipient session.userId)

lemma claimForUser_gives (hs : w.store.Keyed) (u : UserId) :
    Gives (fixed now accepting i) (fun _ w₁ => Undisturbed i w w₁ ∧
        w₁.Woken rm now i u ∧ ∀ v, w.Woken rm now i v → w₁.Woken rm now i v)
      (rm.claimForUser u) w := by
  have hsame : Undisturbed i w w := ⟨.refl _, hs, rfl, rfl⟩
  refine Gives.of_leads (Leads.bind leads_load) ?_
  split
  · rename_i session hsession
    let c := w.claiming rm now session
    by_cases hpaused : session ∈ (w.process i).paused
    · refine Gives.of_leads (claimFor_leads_paused (c := c) hpaused)
        (Gives.ret ⟨hsame, fun other hother => ?_, fun _ => id⟩)
      obtain rfl := Option.some.inj (hsession.symm.trans hother)
      exact .inl hpaused
    · refine (claimFor_gives (c := c) rfl hpaused).mono ?_
      rintro _ w₁ ⟨o, ho, heffect⟩
      have hno : o.paused = false := ho.paused_of_accepting fun _ => rfl
      have hfind := heffect.findMessage
      have hsettled : c.Settled (w₁.store.deliveriesByRecipient session.userId) :=
        heffect.settled hs ho hno
      have hafter : Undisturbed i w w₁ := by
        refine ⟨?_, ?_, heffect.active, ?_⟩
        · rw [heffect.store]
          exact onlyRows_writeAll _ _
        · rw [heffect.store]
          exact hs.writeAll _
        · rw [heffect.paused, hno]
          rfl
      refine ⟨hafter, fun other hother => ?_, fun v hv other hother => ?_⟩
      · rw [heffect.active] at hother
        obtain rfl := Option.some.inj (hsession.symm.trans hother)
        refine .inr ?_
        rw [World.claiming, hfind]
        exact hsettled
      · rw [heffect.active] at hother
        rw [hafter.paused, World.claiming, hfind]
        refine (hv other hother).imp_right fun hold => ?_
        by_cases hu : other.userId = session.userId
        · rw [hu]
          exact hsettled
        · rw [heffect.deliveriesByRecipient_of_ne hs ho hu]
          exact hold
  · rename_i hnone
    refine Gives.ret ⟨hsame, fun other hother => ?_, fun _ => id⟩
    rw [hnone] at hother
    cases hother

lemma wakeupAccepted_gives (hs : w.store.Keyed) (recipients : List UserId) :
    Gives (fixed now accepting i)
      (fun _ w₁ => Undisturbed i w w₁ ∧ ∀ u ∈ recipients, w₁.Woken rm now i u)
      (rm.wakeupAccepted recipients) w := by
  -- the invariant speaks of the recipients that have been dealt with
  have hloop : Gives (fixed now accepting i)
      (fun _ w₁ => Undisturbed i w w₁ ∧
        ∃ done, done ++ [] = recipients ∧ ∀ u ∈ done, w₁.Woken rm now i u)
      (rm.wakeupAccepted recipients) w := by
    refine Gives.forEach (P := fun rest w₁ => Undisturbed i w w₁ ∧
      ∃ done, done ++ rest = recipients ∧ ∀ u ∈ done, w₁.Woken rm now i u) ?_ recipients w
      ⟨⟨.refl _, hs, rfl, rfl⟩, [], rfl, by simp⟩
    rintro u rest w₁ ⟨hafter, done, hdone, hwoken⟩
    refine (claimForUser_gives hafter.keyed u).mono ?_
    rintro _ w2 ⟨hafter2, hu, hkeep⟩
    refine ⟨hafter.trans hafter2, done ++ [u], by simpa using hdone, fun v hv => ?_⟩
    rcases List.mem_append.1 hv with hv | hv
    · exact hkeep v (hwoken v hv)
    · rw [List.mem_singleton.1 hv]
      exact hu
  refine hloop.mono ?_
  rintro _ w₁ ⟨hafter, done, hdone, hwoken⟩
  rw [List.append_nil] at hdone
  exact ⟨hafter, hdone ▸ hwoken⟩

/-! ### The second time -/

lemma wakeupAccepted_leads (hwoken : ∀ u ∈ recipients, w.Woken rm now i u) :
    ∃ w₁, Leads (fixed now accepting i) (rm.wakeupAccepted recipients) w (.ret ()) w₁ ∧
      w₁.store = w.store ∧ w₁.sent = w.sent ∧
      (w₁.process i).activeByUser = (w.process i).activeByUser ∧
      (w₁.process i).paused = (w.process i).paused := by
  induction recipients generalizing w with
  | nil => exact ⟨w, Leads.refl _ _, rfl, rfl, rfl, rfl⟩
  | cons u rest ih =>
    have hone : ∃ w₁, Leads (fixed now accepting i) (rm.claimForUser u) w (.ret ()) w₁ ∧
        w₁.store = w.store ∧ w₁.sent = w.sent ∧
        (w₁.process i).activeByUser = (w.process i).activeByUser ∧
        (w₁.process i).paused = (w.process i).paused := by
      cases hsession : (w.process i).activeByUser[u]? with
      | none =>
        refine ⟨w, (Leads.bind leads_load).trans ?_, rfl, rfl, rfl, rfl⟩
        rw [hsession]
        exact Leads.refl _ _
      | some session =>
        obtain ⟨attempts, w₁, hw1, heffect, hattempts⟩ := claimFor_leads_again (i := i)
          (c := w.claiming rm now session) rfl (hwoken u (by simp) session hsession)
        obtain rfl := hattempts fun _ => rfl
        refine ⟨w₁, (Leads.bind leads_load).trans ?_, heffect.store, heffect.sent,
          heffect.active, heffect.paused⟩
        rw [hsession]
        exact hw1
    obtain ⟨w₁, hw1, hstore, hsent, hactive, hpaused⟩ := hone
    have hwoken1 : ∀ v ∈ rest, w₁.Woken rm now i v := by
      intro v hv session hsession
      rw [hactive] at hsession
      rw [hpaused, World.claiming, hstore]
      exact hwoken v (List.mem_cons_of_mem u hv) session hsession
    obtain ⟨w2, hw2, hstore2, hsent2, hactive2, hpaused2⟩ := ih hwoken1
    exact ⟨w2, hw1.bind.trans hw2, hstore2.trans hstore, hsent2.trans hsent,
      hactive2.trans hactive, hpaused2.trans hpaused⟩

/-! ### The handler -/

section Handler

variable {sink : DeliveryAttempt → DeliverDisposition} {α : Type}

lemma eval_port (p : Code α) (ωs : List Env) (w : World ι) :
    (WakeupCode.port p).eval (wakeup now sink i) ωs w =
      p.eval (fixed now sink i) ωs w := by
  induction p generalizing ωs w with
  | ret a | fail e | hang => rfl
  | call c k ih =>
    show (fixed now sink i c ωs.headI w).bind _ = (fixed now sink i c ωs.headI w).bind _
    refine congrArg _ (funext fun x => ?_)
    exact ih x.1 ωs.tail x.2

lemma Prog.Leads.port {p : Code α} {a : α} (hp : Leads (fixed now sink i) p w (.ret a) w₁) :
    Leads (wakeup now sink i) (WakeupCode.port p) w (.ret a) w₁ := by
  refine Leads.of_eval fun ωs => ?_
  rw [eval_port]
  exact (hp.eval ωs).choose_spec

lemma Prog.Gives.port {Q : α → World ι → Prop} {p : Code α}
    (hp : Gives (fixed now sink i) Q p w) :
    Gives (wakeup now sink i) Q (WakeupCode.port p) w := by
  intro ωs
  rw [eval_port]
  exact hp ωs

end Handler

/-- No message, delivery row, conversation or event has come in: the contents of rows and the dead
letters apart, the stores are the same, and they have rows under the same keys. -/
structure InsertsNothing (s s' : InMemoryMessageStore) : Prop where
  rest : s' = { s with deliveries := s'.deliveries, deadLetters := s'.deadLetters }
  present : ∀ k, (s'.row k).isSome = (s.row k).isSome

/-- What the handler answers when it is called again. -/
def replayed (s : InMemoryMessageStore) (record : ConsumedOutboxRecord) : ConsumeDisposition :=
  if (s.findMessage ⟨record.messageId⟩).isSome then .duplicateNoOp else .deadLettered

variable {record : ConsumedOutboxRecord}

variable (now i rm) in
lemma handle_leads_missing
    (hnone : w.store.findMessage ⟨record.messageId⟩ = none) :
    Leads (wakeup now accepting i) (WakeupProgressHandler.handle rm record) w
      (.ret .deadLettered)
      { w with store := w.store.recordDeadLetter (WakeupProgressHandler.deadLetter record) } := by
  have hlookup : Leads (fixed now accepting i)
      (Code.store (.findMessage ⟨record.messageId⟩)) w (.ret none) w := by
    rw [← hnone]
    exact leads_store
  refine hlookup.port.bind.trans (Leads.bind (Leads.ask fun _ => rfl))

lemma recordDeadLetter_recordDeadLetter (s : InMemoryMessageStore) (r : DeadLetterRecord) :
    (s.recordDeadLetter r).recordDeadLetter r = s.recordDeadLetter r := by
  have hkept : ((s.recordDeadLetter r).deadLetters.any fun d => d.topic = r.topic &&
      d.partitionId = r.partitionId && d.kafkaOffset = r.kafkaOffset) = true := by
    unfold recordDeadLetter
    split
    · assumption
    · simp
  generalize s.recordDeadLetter r = s' at hkept ⊢
  unfold recordDeadLetter
  rw [if_pos hkept]

lemma insertsNothing_recordDeadLetter (s : InMemoryMessageStore) (r : DeadLetterRecord) :
    InsertsNothing s (s.recordDeadLetter r) := by
  unfold recordDeadLetter
  split
  · exact ⟨rfl, fun _ => rfl⟩
  · exact ⟨rfl, fun _ => rfl⟩

variable (now i rm) in
lemma handle_leads_found {msg : Message}
    (hmsg : w.store.findMessage ⟨record.messageId⟩ = some msg) :
    Leads (wakeup now accepting i) (WakeupProgressHandler.handle rm record) w
      (WakeupProgressHandler.wakeAndCompare rm msg ⟨record.messageId⟩
        (w.store.deliveriesByMessage ⟨record.messageId⟩)) w := by
  have hlookup : Leads (fixed now accepting i)
      (Code.store (.findMessage ⟨record.messageId⟩)) w (.ret (some msg)) w := by
    rw [← hmsg]
    exact leads_store
  exact hlookup.port.bind.trans (Leads.bind (Leads.port leads_store))

variable (now i rm) in
lemma handle_gives_found {msg : Message} (hs : w.store.Keyed)
    (hmsg : w.store.findMessage ⟨record.messageId⟩ = some msg) :
    Gives (wakeup now accepting i)
      (fun _ w₁ => Undisturbed i w w₁ ∧
        ∀ u ∈ outboxRecipientsFor msg.command, w₁.Woken rm now i u)
      (WakeupProgressHandler.handle rm record) w := by
  refine Gives.of_leads (handle_leads_found now i rm hmsg) ?_
  refine Gives.bind ((wakeupAccepted_gives hs _).port.mono ?_)
  intro _ w₁ hw1
  exact Gives.of_leads (Leads.bind (Leads.port leads_store)) (Gives.ret hw1)

lemma handle_leads_again {msg : Message} (hs : w.store.Keyed)
    (hmsg : w.store.findMessage ⟨record.messageId⟩ = some msg)
    (hwoken : ∀ u ∈ outboxRecipientsFor msg.command, w.Woken rm now i u) :
    ∃ w₁, Leads (wakeup now accepting i) (WakeupProgressHandler.handle rm record) w
        (.ret .duplicateNoOp) w₁ ∧ w₁.store = w.store ∧ w₁.sent = w.sent := by
  obtain ⟨w₁, hw1, hstore, hsent, -, -⟩ := wakeupAccepted_leads hwoken
  have hafter : Leads (fixed now accepting i)
      (Code.store (.deliveriesByMessage ⟨record.messageId⟩)) w₁
      (.ret (w.store.deliveriesByMessage ⟨record.messageId⟩)) w₁ := by
    rw [← hstore]
    exact leads_store
  have hsame := progressed_self (nodup_recipient_deliveriesByMessage hs ⟨record.messageId⟩)
  refine ⟨w₁, (handle_leads_found now i rm hmsg).trans (hw1.port.bind.trans (hafter.port.bind.trans ?_)),
    hstore, hsent⟩
  rw [hsame]
  exact Leads.refl _ _

lemma wakeupAccepted_ends (hlease : 0 < Json.toInt64 rm.leaseMs) (recipients : List UserId) :
    World.Ends i (fun _ _ => True) (rm.wakeupAccepted recipients) w := by
  induction recipients generalizing w with
  | nil => trivial
  | cons u rest ih =>
    refine Completes.bind (ends_load ?_)
    split
    · exact (claimFor_ends hlease).mono fun _ _ _ => ih
    · exact ih

lemma handle_eval_ne_none (hlease : 0 < Json.toInt64 rm.leaseMs)
    {msg : Message} (hmsg : w.store.findMessage ⟨record.messageId⟩ = some msg) (ωs : List Env) :
    (WakeupProgressHandler.handle rm record).eval (wakeup now accepting i) ωs w ≠ none := by
  obtain ⟨ωs1, hstart⟩ := (handle_leads_found now i rm hmsg).eval ωs
  obtain ⟨_, w₁, hwake, -⟩ := (wakeupAccepted_ends (i := i) (w := w) hlease
    (outboxRecipientsFor msg.command)).eval_fixed now accepting ωs1
  rw [← eval_port] at hwake
  obtain ⟨ωs2, hrest⟩ := eval_bind_of_eval hwake
  rw [hstart, WakeupProgressHandler.wakeAndCompare, hrest]
  intro hnone
  cases hnone

end Replay

/-- **Wakeup replay is idempotent.**  Handling an event inserts nothing, and handling it again
directly afterwards leaves the store as it is, calls the sink for nobody, and says so: the event is
a duplicate, or a dead letter that is there already.  A lease of 2^63 ms or more is none as a signed
number, and then the first handling may hang; with any other lease it returns. -/
theorem wakeup_replay_idempotent {ι : Type} [DecidableEq ι] (rm : ReliableMessaging) (i : ι)
    (w : World ι) (now : ℤ) (record : ConsumedOutboxRecord) (hkeyed : w.store.Keyed)
    (hlease : 0 < rm.leaseMs) (ωs : List Env) :
    ((WakeupProgressHandler.handle rm record).eval (World.wakeup now accepting i) ωs w = none ∧
        2 ^ 63 ≤ rm.leaseMs) ∨
      ∃ disposition w₁,
        (WakeupProgressHandler.handle rm record).eval (World.wakeup now accepting i) ωs w =
          some (.ok disposition, w₁) ∧
        InsertsNothing w.store w₁.store ∧
        ∀ ωs', ∃ w₂,
          (WakeupProgressHandler.handle rm record).eval (World.wakeup now accepting i) ωs' w₁ =
            some (.ok (replayed w.store record), w₂) ∧
          w₂.store = w₁.store ∧ w₂.sent = w₁.sent := by
  cases hmsg : w.store.findMessage ⟨record.messageId⟩ with
  | none =>
    let w₁ : World ι :=
      { w with store := w.store.recordDeadLetter (WakeupProgressHandler.deadLetter record) }
    have hnothing : InsertsNothing w.store w₁.store := insertsNothing_recordDeadLetter _ _
    have hmsg₁ : w₁.store.findMessage ⟨record.messageId⟩ = none := by
      rw [hnothing.rest]
      exact hmsg
    obtain ⟨_, hfirst⟩ := (handle_leads_missing now i rm hmsg).eval ωs
    refine .inr ⟨.deadLettered, w₁, hfirst, hnothing, fun ωs' => ?_⟩
    obtain ⟨_, hsecond⟩ := (handle_leads_missing now i rm hmsg₁).eval ωs'
    have hanswer : replayed w.store record = .deadLettered := by simp [replayed, hmsg]
    rw [hanswer]
    exact ⟨_, hsecond, recordDeadLetter_recordDeadLetter _ _, rfl⟩
  | some msg =>
    rcases handle_gives_found now i rm hkeyed hmsg ωs with
      hnone | ⟨disposition, w₁, hfirst, hafter, hwoken⟩
    · refine .inl ⟨hnone, ?_⟩
      by_contra hsmall
      have hpos : 0 < Json.toInt64 rm.leaseMs := by
        rw [Json.toInt64_of_lt (by omega)]
        omega
      exact handle_eval_ne_none hpos hmsg ωs hnone
    · refine .inr ⟨disposition, w₁, hfirst, ⟨?_, hafter.store.present⟩, fun ωs' => ?_⟩
      · conv_lhs => rw [hafter.store.rest]
        rw [show w₁.store.deadLetters = w.store.deadLetters by rw [hafter.store.rest]]
      · have hmsg₁ : w₁.store.findMessage ⟨record.messageId⟩ = some msg := by
          rw [hafter.findMessage, hmsg]
        obtain ⟨w₂, hw₂, hstore, hsent⟩ := handle_leads_again hafter.keyed hmsg₁ hwoken
        obtain ⟨_, hsecond⟩ := hw₂.eval ωs'
        have hanswer : replayed w.store record = .duplicateNoOp := by simp [replayed, hmsg]
        rw [hanswer]
        exact ⟨w₂, hsecond, hstore, hsent⟩

def forSecond : Message :=
  { id := ⟨1⟩, command := { kind := .direct, directRecipient := ⟨2⟩ } }

def awaitedStore : InMemoryMessageStore :=
  InMemoryMessageStore.insertDelivery { messagesById := TreeMap.ofList [(1, forSecond)] }
    { messageId := ⟨1⟩, recipient := ⟨2⟩ }

/-- The message waits for user 2, who is online. -/
def awaited : World Unit :=
  { store := awaitedStore
    process := fun _ => { activeByUser := TreeMap.empty.insert ⟨2⟩ ⟨⟨2⟩, 1⟩ } }

/-- The second time the event is a duplicate. -/
theorem wakeup_replay_idempotent_awaited :
    ∃ disposition w₁,
      (WakeupProgressHandler.handle { leaseMs := 30000, config := {}, bootId := 1 }
          { messageId := 1 }).eval (World.wakeup 5000 accepting ()) [] awaited =
        some (.ok disposition, w₁) ∧
      InsertsNothing awaited.store w₁.store ∧
      ∀ ωs', ∃ w₂,
        (WakeupProgressHandler.handle { leaseMs := 30000, config := {}, bootId := 1 }
            { messageId := 1 }).eval (World.wakeup 5000 accepting ()) ωs' w₁ =
          some (.ok .duplicateNoOp, w₂) ∧ w₂.store = w₁.store ∧ w₂.sent = w₁.sent := by
  have hkeyed : awaited.store.Keyed := by
    refine InMemoryMessageStore.Keyed.insertDelivery ?_ _
    intro k d hk
    simp [InMemoryMessageStore.row] at hk
  have hanswer : replayed awaited.store { messageId := 1 } = .duplicateNoOp := by decide +kernel
  have h := wakeup_replay_idempotent { leaseMs := 30000, config := {}, bootId := 1 } () awaited 5000
    { messageId := 1 } hkeyed (by decide) []
  rw [hanswer] at h
  exact h.resolve_left fun hhang => absurd hhang.2 (by decide)

end MuduoChat
