import MuduoChat.Store.Consistent

/-!
# The outbox of the in-memory adapter

Events wait in the outbox until a relay has handed them on.  A relay claims a bounded number
of events at a time, under a lease that runs out, and marks an event as processed after it has
been published.  Both calls are made without interruption.
-/

namespace MuduoChat

open Std OrderedMap

/-- The event can be claimed: it has not been processed, it is available, and no lease on it is
running. -/
def OutboxEvent.claimable (nowMs : ℤ) (e : OutboxEvent) : Bool :=
  e.processedAtMs = 0 && decide (e.availableAtMs ≤ nowMs) &&
    (e.leaseOwner = "" || decide (e.leaseUntilMs ≤ nowMs))

/-- The event under a new lease.  The number of attempts is a 32-bit counter. -/
def OutboxEvent.lease (leaseOwner : String) (leaseUntilMs : ℤ) (e : OutboxEvent) : OutboxEvent :=
  { e with leaseOwner, leaseUntilMs, attemptCount := (e.attemptCount + 1) % 2 ^ 32 }

/-- The event after it has been handed on. -/
def OutboxEvent.processed (nowMs : ℤ) (e : OutboxEvent) : OutboxEvent :=
  { e with processedAtMs := nowMs, leaseOwner := "", leaseUntilMs := 0 }

lemma OutboxEvent.claimable_iff {nowMs : ℤ} {e : OutboxEvent} :
    e.claimable nowMs = true ↔ e.processedAtMs = 0 ∧ e.availableAtMs ≤ nowMs ∧
      (e.leaseOwner = "" ∨ e.leaseUntilMs ≤ nowMs) := by
  simp [claimable, and_assoc]

namespace InMemoryMessageStore

/-- Claim the first events that can be claimed, at most `limit` of them, and return them as
they are under the lease. -/
def claimOutboxEvents (s : InMemoryMessageStore) (nowMs : ℤ) (leaseOwner : String)
    (leaseUntilMs : ℤ) (limit : ℕ) : List OutboxEvent × InMemoryMessageStore :=
  let claimed := select s.outboxEvents (OutboxEvent.claimable nowMs) limit
  (claimed.map fun e => e.2.lease leaseOwner leaseUntilMs,
    { s with
      outboxEvents := rewriteAll (OutboxEvent.lease leaseOwner leaseUntilMs) s.outboxEvents
        claimed })

/-- Mark an event as processed, whoever holds a lease on it. -/
def markOutboxProcessed (s : InMemoryMessageStore) (eventId : ℕ) (nowMs : ℤ) :
    InMemoryMessageStore :=
  match s.outboxEvents[eventId]? with
  | none => s
  | some e => { s with outboxEvents := s.outboxEvents.insert eventId (e.processed nowMs) }

def countUnprocessedOutboxEvents (s : InMemoryMessageStore) : ℕ :=
  (s.outboxEvents.toList.filter fun e => e.2.processedAtMs = 0).length

/-- Keep a record that could not be handled, unless there is one for its place in the stream. -/
def recordDeadLetter (s : InMemoryMessageStore) (r : DeadLetterRecord) : InMemoryMessageStore :=
  if s.deadLetters.any fun d =>
      d.topic = r.topic && d.partitionId = r.partitionId && d.kafkaOffset = r.kafkaOffset then s
  else { s with deadLetters := s.deadLetters ++ [r] }

/-! ### Events before and after a call -/

section

variable {s : InMemoryMessageStore} {nowMs leaseUntilMs : ℤ} {leaseOwner : String} {limit n : ℕ}
  {e e' : OutboxEvent}

lemma outboxEvent_claimOutboxEvents (s : InMemoryMessageStore) (nowMs : ℤ) (leaseOwner : String)
    (leaseUntilMs : ℤ) (limit n : ℕ) :
    (s.claimOutboxEvents nowMs leaseOwner leaseUntilMs limit).2.outboxEvent n =
        s.outboxEvent n ∨
      ∃ e, s.outboxEvent n = some e ∧ e.claimable nowMs = true ∧
        (s.claimOutboxEvents nowMs leaseOwner leaseUntilMs limit).2.outboxEvent n =
          some (e.lease leaseOwner leaseUntilMs) :=
  getElem?_rewriteAll_select _ _ _ _ _

lemma mem_claimOutboxEvents
    (h : e' ∈ (s.claimOutboxEvents nowMs leaseOwner leaseUntilMs limit).1) :
    ∃ n e, s.outboxEvent n = some e ∧ e.claimable nowMs = true ∧
      e' = e.lease leaseOwner leaseUntilMs ∧
      (s.claimOutboxEvents nowMs leaseOwner leaseUntilMs limit).2.outboxEvent n = some e' := by
  obtain ⟨⟨n, e⟩, hmem, rfl⟩ := List.mem_map.1 h
  obtain ⟨he, hc⟩ := mem_select hmem
  exact ⟨n, e, he, hc, rfl, getElem?_rewriteAll_of_mem _ _ (nodup_keys_select _ _ _) hmem⟩

/-- An event that can be claimed is returned, unless the claim returns as many events as it may
with smaller ids. -/
lemma claimOutboxEvents_complete (he : s.outboxEvent n = some e)
    (hc : e.claimable nowMs = true) :
    e.lease leaseOwner leaseUntilMs ∈
        (s.claimOutboxEvents nowMs leaseOwner leaseUntilMs limit).1 ∨
      (s.claimOutboxEvents nowMs leaseOwner leaseUntilMs limit).1.length = limit ∧
      ∀ e' ∈ (s.claimOutboxEvents nowMs leaseOwner leaseUntilMs limit).1,
        ∃ n' e1, s.outboxEvent n' = some e1 ∧ e' = e1.lease leaseOwner leaseUntilMs ∧
          n' < n := by
  rcases mem_select_or_full (p := OutboxEvent.claimable nowMs) limit he hc with h | ⟨hlen, hlt⟩
  · exact .inl (List.mem_map.2 ⟨(n, e), h, rfl⟩)
  · refine .inr ⟨by simp only [claimOutboxEvents, List.length_map, hlen], fun e' he' => ?_⟩
    obtain ⟨⟨n', e1⟩, hmem, rfl⟩ := List.mem_map.1 he'
    exact ⟨n', e1, (mem_select hmem).1, rfl, compare_lt_iff_lt.1 (hlt _ hmem)⟩

lemma outboxEvent_markOutboxProcessed (s : InMemoryMessageStore) (k : ℕ) (nowMs : ℤ) (n : ℕ) :
    (s.markOutboxProcessed k nowMs).outboxEvent n =
      if k = n then (s.outboxEvent n).map (OutboxEvent.processed nowMs) else s.outboxEvent n := by
  unfold markOutboxProcessed
  cases h : s.outboxEvents[k]? with
  | none =>
    split_ifs with hk
    · subst hk
      simp [outboxEvent, h]
    · rfl
  | some e =>
    have hlook := getElem?_insert s.outboxEvents k n (e.processed nowMs)
    refine hlook.trans ?_
    split_ifs with hk
    · subst hk
      simp [outboxEvent, h]
    · rfl

end

end InMemoryMessageStore

end MuduoChat
