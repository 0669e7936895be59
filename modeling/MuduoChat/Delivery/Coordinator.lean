import MuduoChat.Delivery.Port

/-!
# The delivery coordinator

The state machine of deliveries: claims and leases, acknowledgement, pausing under back
pressure, active sessions, the implicit acknowledgement of legacy messages, and the scan for
attempts that have timed out.  Each operation is a program over `Port` in the order of calls
of the source.
-/

namespace MuduoChat

open Std Code

namespace Coordinator

/-! ### Retry delays -/

/-- The loop of the backoff: multiply until the cap is reached.  A product that would pass
the cap is not formed. -/
def backoffLoop (config : RetryConfig) : ℕ → ℤ → ℤ
  | 0, delay => delay
  | n + 1, delay =>
    if delay < config.backoffCapMs then
      if config.backoffMultiplier > 1 ∧
          delay > config.backoffCapMs.tdiv config.backoffMultiplier then
        config.backoffCapMs
      else
        backoffLoop config n (delay * config.backoffMultiplier)
    else
      delay

/-- The delay before jitter is applied. -/
def backoffBase (config : RetryConfig) (attempt : ℕ) : ℤ :=
  let delay := backoffLoop config (attempt - 1) config.backoffBaseMs
  if delay > config.backoffCapMs then config.backoffCapMs else delay

/-- The backoff after the given attempt, which counts from one. -/
def backoffMs (co : Coordinator) (attempt : ℕ) : Code ℤ :=
  let delay := backoffBase co.config attempt
  if co.config.jitterFraction > 0 ∧ delay > 1 then do
    let jittered ← jitter delay
    pure (if jittered < 1 then 1 else jittered)
  else
    pure delay

/-- The time to the next attempt: the backoff, and at least the time an acknowledgement is
given. -/
def retryDelayMs (co : Coordinator) (attempt : ℕ) : Code ℤ := do
  let backoff ← co.backoffMs attempt
  pure (if backoff > co.config.ackTimeoutMs then backoff else co.config.ackTimeoutMs)

/-! ### The rows that are written -/

/-- A row whose lease has been given up. -/
def released (d : Delivery) : Delivery :=
  { d with state := .pending, leaseOwner := {}, leaseBootId := 0, leaseUntilMs := 0 }

/-- A row that its recipient has acknowledged. -/
def acked (now : ℤ) (d : Delivery) : Delivery :=
  { d with state := .acknowledged, acknowledgedAtMs := now }

/-- The number of the next attempt, a 32-bit counter. -/
def nextAttempt (d : Delivery) : ℕ := (d.attemptCount + 1) % 2 ^ 32

/-- A row after the sink has accepted an attempt for it.  A legacy message is acknowledged
at once. -/
def claimed (co : Coordinator) (session : SessionIdentity) (now delay : ℤ) (legacy : Bool)
    (head : Delivery) : Delivery :=
  { head with
    state := if legacy then .acknowledged else .inFlight
    leaseOwner := session
    leaseBootId := co.bootId
    leaseUntilMs := now + Json.toInt64 co.leaseMs
    attemptCount := nextAttempt head
    lastSentAtMs := now
    nextAttemptAtMs := now + delay
    acknowledgedAtMs := if legacy then now else head.acknowledgedAtMs }

/-! ### Claims -/

/-- The row that stands first among those that are not terminal: the first one of least
sequence.  It is returned with its place in the list. -/
def headFrom : ℕ → Option (ℕ × Delivery) → List Delivery → Option (ℕ × Delivery)
  | _, best, [] => best
  | i, best, d :: rows =>
    if d.state.terminal then
      headFrom (i + 1) best rows
    else
      match best with
      | none => headFrom (i + 1) (some (i, d)) rows
      | some (j, b) =>
        if d.sequence.value < b.sequence.value then
          headFrom (i + 1) (some (i, d)) rows
        else
          headFrom (i + 1) (some (j, b)) rows

lemma terminal_of_headFrom_eq_none {i : ℕ} {best : Option (ℕ × Delivery)} {rows : List Delivery}
    (h : headFrom i best rows = none) : best = none ∧ ∀ d ∈ rows, d.state.terminal = true := by
  induction rows generalizing i best with
  | nil => exact ⟨h, by simp⟩
  | cons d rows ih =>
    unfold headFrom at h
    split at h
    · rename_i hd
      obtain ⟨hbest, hrows⟩ := ih h
      exact ⟨hbest, by simpa [hd] using hrows⟩
    · -- an open row becomes the head or yields to one
      split at h
      · exact absurd (ih h).1 (by simp)
      · split at h <;> exact absurd (ih h).1 (by simp)

/-- Where the head comes from: it is the best one so far, or an open row of the list at the
place that is returned. -/
lemma headFrom_origin {i j : ℕ} {best : Option (ℕ × Delivery)} {rows : List Delivery}
    {h : Delivery} (heq : headFrom i best rows = some (j, h)) :
    best = some (j, h) ∨ ∃ n, j = i + n ∧ rows[n]? = some h ∧ h.state.terminal = false := by
  induction rows generalizing i best with
  | nil => exact .inl heq
  | cons d rows ih =>
    have later (hlater : ∃ n, j = i + 1 + n ∧ rows[n]? = some h ∧ h.state.terminal = false) :
        ∃ n, j = i + n ∧ (d :: rows)[n]? = some h ∧ h.state.terminal = false := by
      obtain ⟨n, hj, hn, hopen⟩ := hlater
      exact ⟨n + 1, by omega, by simpa using hn, hopen⟩
    have here (hd : d.state.terminal ≠ true) (hjd : some (i, d) = some (j, h)) :
        ∃ n, j = i + n ∧ (d :: rows)[n]? = some h ∧ h.state.terminal = false := by
      obtain ⟨rfl, rfl⟩ : i = j ∧ d = h := by simpa using hjd
      exact ⟨0, by simp, by simp, by simpa using hd⟩
    unfold headFrom at heq
    split at heq
    · exact (ih heq).imp id later
    · rename_i hd
      split at heq
      · exact .inr ((ih heq).elim (here hd) later)
      · split at heq
        · exact .inr ((ih heq).elim (here hd) later)
        · exact (ih heq).imp id later

lemma headFrom_le {i j : ℕ} {best : Option (ℕ × Delivery)} {rows : List Delivery} {h : Delivery}
    (heq : headFrom i best rows = some (j, h)) :
    (∀ b, best = some b → h.sequence.value ≤ b.2.sequence.value) ∧
      ∀ d ∈ rows, d.state.terminal = false → h.sequence.value ≤ d.sequence.value := by
  induction rows generalizing i best with
  | nil =>
    refine ⟨fun b hb => ?_, by simp⟩
    have hbest : best = some (j, h) := heq
    obtain rfl : b = (j, h) := Option.some.inj (hb.symm.trans hbest)
    exact Nat.le_refl _
  | cons d rows ih =>
    unfold headFrom at heq
    split at heq
    · rename_i hd
      obtain ⟨hbest, hrows⟩ := ih heq
      exact ⟨hbest, by simpa [hd] using hrows⟩
    · split at heq
      · obtain ⟨hbest, hrows⟩ := ih heq
        have hle := hbest _ rfl
        exact ⟨by simp, by simpa using ⟨fun _ => hle, hrows⟩⟩
      · rename_i jb b
        split at heq
        · rename_i hlt
          obtain ⟨hbest, hrows⟩ := ih heq
          have hle : h.sequence.value ≤ d.sequence.value := hbest _ rfl
          refine ⟨fun b' hb' => ?_, by simpa using ⟨fun _ => hle, hrows⟩⟩
          cases hb'
          exact hle.trans hlt.le
        · rename_i hlt
          obtain ⟨hbest, hrows⟩ := ih heq
          have hle : h.sequence.value ≤ b.sequence.value := hbest _ rfl
          exact ⟨hbest, by simpa using ⟨fun _ => hle.trans (Nat.le_of_not_lt hlt), hrows⟩⟩

/-- A row can be claimed if it is pending or its lease has run out. -/
def claimable (now : ℤ) (head : Delivery) : Bool :=
  head.state = .pending || (head.state = .inFlight && decide (head.leaseUntilMs ≤ now))

lemma claimable_iff {now : ℤ} {head : Delivery} :
    claimable now head = true ↔
      head.state = .pending ∨ head.state = .inFlight ∧ head.leaseUntilMs ≤ now := by
  simp [claimable]

lemma open_of_claimable {now : ℤ} {head : Delivery} (h : claimable now head = true) :
    head.state.terminal = false := by
  rcases claimable_iff.1 h with h | ⟨h, -⟩ <;> simp [h]

/-- The attempt that is made for a row. -/
def attemptFor (message : Message) (head : Delivery) : DeliveryAttempt :=
  { messageId := head.messageId
    conversationId := head.conversationId
    sequence := head.sequence
    senderId := message.senderId
    recipient := head.recipient
    kind := message.command.kind
    directRecipient := message.command.directRecipient
    groupId := message.command.groupId
    content := message.command.content
    attemptNumber := nextAttempt head }

/-- What is recorded after a claim has been written. -/
def recordClaim (src : DeliveryState) (legacy : Bool) (row : Delivery) : Code Unit := do
  record (.attempt (row.attemptCount > 1))
  recordTransition row.messageId row.recipient src .inFlight
  Prog.when legacy do
    recordTransition row.messageId row.recipient .inFlight .acknowledged
    recordEviction row.messageId row.recipient

/-- Write a claim: schedule the next attempt, store the row and record it. -/
def writeClaim (co : Coordinator) (session : SessionIdentity) (now : ℤ) (message : Message)
    (head : Delivery) : Code Delivery := do
  let legacy := isLegacyClientMessageId message.command.clientMessageId.value
  let delay ← co.retryDelayMs (nextAttempt head)
  let row := co.claimed session now delay legacy head
  Prog.when (!legacy) <| modify fun p =>
    { p with tickNextAttemptsMs := p.tickNextAttemptsMs ++ [row.nextAttemptAtMs] }
  store (.updateDelivery row)
  recordClaim head.state legacy row
  pure row

/-- The claim loop over the rows of one conversation.  The loop of the source has no bound;
here it hangs after `fuel` rounds.  The answer says whether the sink asked for a pause. -/
def claimLoop (co : Coordinator) (session : SessionIdentity) (now : ℤ) :
    ℕ → List Delivery → Code Bool
  | 0, _ => .hang
  | fuel + 1, rows =>
    match headFrom 0 none rows with
    | none => pure false
    | some (i, head) =>
      if claimable now head then do
        match ← store (.findMessage head.messageId) with
        | none => pure false
        | some message =>
          match ← deliver (attemptFor message head) with
          | .accepted =>
            let row ← co.writeClaim session now message head
            claimLoop co session now fuel (rows.set i row)
          | .paused =>
            modify fun p => { p with paused := p.paused.insert session }
            pure true
          | .closed => pure false
      else
        pure false

/-- Claim in one conversation.  A round that goes on makes one more row unclaimable as long
as leases last, so one round more than there are rows is enough then; `patience` adds more
rounds for leases that do not. -/
def claimConversation (co : Coordinator) (session : SessionIdentity) (now : ℤ)
    (rows : List Delivery) : Code Bool :=
  co.claimLoop session now (rows.length + 1 + co.patience) rows

/-- Claim in one conversation after the other until the sink asks for a pause. -/
def claimConversations (co : Coordinator) (session : SessionIdentity) (now : ℤ) :
    List (ℕ × List Delivery) → Code Unit
  | [] => pure ()
  | (_, rows) :: rest => do
      let paused ← co.claimConversation session now rows
      if paused then pure () else claimConversations co session now rest

/-- The rows that are not terminal, by conversation. -/
def byConversation (deliveries : List Delivery) : TreeMap ℕ (List Delivery) :=
  deliveries.foldl
    (fun groups d =>
      if d.state.terminal then groups
      else groups.insert d.conversationId.value
        (groups[d.conversationId.value]?.getD [] ++ [d]))
    ∅

lemma getElem?_byConversation (deliveries : List Delivery) (c : ℕ) :
    (byConversation deliveries)[c]?.getD [] =
      deliveries.filter fun d => !d.state.terminal && d.conversationId.value = c := by
  induction deliveries using List.reverseRecOn with
  | nil => simp [byConversation]
  | append_singleton ds d ih =>
    have hstep : byConversation (ds ++ [d]) =
        if d.state.terminal then byConversation ds
        else (byConversation ds).insert d.conversationId.value
          ((byConversation ds)[d.conversationId.value]?.getD [] ++ [d]) := by
      simp [byConversation]
    rw [hstep, List.filter_append]
    by_cases hd : d.state.terminal = true
    · simp [hd, ih]
    · by_cases hc : d.conversationId.value = c
      · subst hc
        simp [hd, ih]
      · simp [hd, hc, OrderedMap.getElem?_insert, ih]

lemma snd_of_mem_byConversation {deliveries : List Delivery} {g : ℕ × List Delivery}
    (hg : g ∈ (byConversation deliveries).toList) :
    g.2 = deliveries.filter fun d => !d.state.terminal && d.conversationId.value = g.1 := by
  rw [← getElem?_byConversation, OrderedMap.mem_toList.1 hg, Option.getD_some]

/-- Claim what can be claimed for a session. -/
def claimFor (co : Coordinator) (session : SessionIdentity) : Code Unit := do
  let p ← load
  if session ∈ p.paused then
    pure ()
  else do
    let deliveries ← store (.deliveriesByRecipient session.userId)
    let now ← nowMs
    co.claimConversations session now (byConversation deliveries).toList

/-! ### The operations -/

/-- Acknowledge a message on behalf of a session.  A session that has been superseded, or
that is older than one already seen, is not heard. -/
def acknowledge (co : Coordinator) (acker : SessionIdentity) (messageId : MessageId) :
    Code AckResult := do
  let p ← load
  if p.superseded acker then
    pure .notRecipient
  else if p.outdated acker then
    pure .notRecipient
  else do
    let deliveries ← store (.deliveriesByMessage messageId)
    if deliveries.isEmpty then
      pure .notFound
    else
      match deliveries.find? fun d => d.recipient = acker.userId with
      | none => pure .notRecipient
      | some mine =>
        if mine.state = .acknowledged then
          pure .idempotent
        else do
          let now ← nowMs
          store (.updateDelivery (acked now mine))
          co.claimFor acker
          recordTransition mine.messageId mine.recipient mine.state .acknowledged
          record (.ack mine.messageId.value)
          recordEviction mine.messageId mine.recipient
          pure .acknowledged

/-- Give up the lease of a row. -/
def release (d : Delivery) : Code Unit := do
  store (.updateDelivery (released d))
  recordTransition d.messageId d.recipient .inFlight .pending

/-- The lease belongs to the user, but not to this session of this process. -/
def fenced (co : Coordinator) (session : SessionIdentity) (d : Delivery) : Bool :=
  d.state = .inFlight && d.leaseOwner.userId = session.userId &&
    !(d.leaseOwner = session && d.leaseBootId = co.bootId)

/-- A session has come up: fence the leases of earlier ones, make it the active one and
claim for it. -/
def sessionAvailable (co : Coordinator) (session : SessionIdentity) : Code Unit := do
  let p ← load
  if p.outdated session then
    pure ()
  else do
    save { p with
      observedGenerationByUser :=
        p.observedGenerationByUser.insert session.userId session.generation }
    let deliveries ← store (.deliveriesByRecipient session.userId)
    Prog.forEach (fun d => Prog.when (co.fenced session d) (release d)) deliveries
    modify fun p => { p with activeByUser := p.activeByUser.insert session.userId session }
    co.claimFor session

/-- The memory of a process in which a session has been closed. -/
def withoutSession (session : SessionIdentity) (p : Process) : Process :=
  { p with
    paused := p.paused.erase session
    activeByUser :=
      if p.activeByUser[session.userId]? = some session then p.activeByUser.erase session.userId
      else p.activeByUser }

/-- A session has gone: release what it has in flight, and claim for the session that has
taken its place, if there is one. -/
def sessionClosed (co : Coordinator) (session : SessionIdentity) : Code Unit := do
  let p ← load
  save (withoutSession session p)
  let deliveries ← store (.deliveriesByRecipient session.userId)
  Prog.forEach
    (fun d => Prog.when (d.state = .inFlight ∧ d.leaseOwner = session) (release d))
    deliveries
  match (withoutSession session p).activeByUser[session.userId]? with
  | some active => co.claimFor active
  | none => pure ()

/-- The session's connection can take more: end the pause and claim again. -/
def resume (co : Coordinator) (session : SessionIdentity) : Code Unit := do
  let p ← load
  if p.activeByUser[session.userId]? ≠ some session then
    pure ()
  else if p.outdated session then
    pure ()
  else do
    save { p with paused := p.paused.erase session }
    co.claimFor session

/-- Claim for the recipient of a new message, if it has an active session. -/
def claimForUser (co : Coordinator) (user : UserId) : Code Unit := do
  let p ← load
  match p.activeByUser[user]? with
  | some session => co.claimFor session
  | none => pure ()

/-- A message has been accepted: claim for those of its recipients that are online. -/
def onAccepted (co : Coordinator) (recipients : List UserId) : Code Unit :=
  Prog.forEach co.claimForUser recipients

/-- The session for which the scan takes back a due row: the active and unpaused session of
the recipient, if the lease is that session's. -/
def retrySession (p : Process) (d : Delivery) : Option SessionIdentity :=
  match p.activeByUser[d.recipient]? with
  | none => none
  | some active =>
    if active ∈ p.paused then none
    else if d.leaseOwner = active then some active
    else none

lemma retrySession_eq_some {p : Process} {d : Delivery} {session : SessionIdentity} :
    retrySession p d = some session ↔ session = d.leaseOwner ∧
      p.activeByUser[d.recipient]? = some d.leaseOwner ∧ d.leaseOwner ∉ p.paused := by
  unfold retrySession
  split
  · simp [*]
  · split_ifs <;> grind

/-- The loop of the scan over the due rows.  It collects the sessions to claim for. -/
def scanDue (p : Process) : TreeSet SessionIdentity → List Delivery →
    Code (TreeSet SessionIdentity)
  | toClaim, [] => pure toClaim
  | toClaim, d :: due =>
    match retrySession p d with
    | none => scanDue p toClaim due
    | some active => do
        release d
        scanDue p (toClaim.insert active) due

/-- Take back the rows whose acknowledgement is overdue, and attempt them again.  The answer
is the next attempts that were scheduled. -/
def runRetryScan (co : Coordinator) (now : ℤ) : Code (List ℤ) := do
  modify fun p => { p with tickNextAttemptsMs := [] }
  let due ← store (.deliveriesDueForRetry now co.config.retryBatchLimit)
  if due.isEmpty then
    pure []
  else do
    let p ← load
    let toClaim ← scanDue p ∅ due
    Prog.forEach co.claimFor toClaim.toList
    let p ← load
    pure p.tickNextAttemptsMs

end Coordinator

end MuduoChat
