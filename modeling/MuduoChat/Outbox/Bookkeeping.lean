import MuduoChat.Lib.OrderedMap
import MuduoChat.Lib.Trace
import MuduoChat.Outbox.Consumer

/-!
# What a consumer remembers

A consumer keeps three containers about conversations: the last record of each, the messages that
have been dealt with, and the order in which the conversations came in.  A poll changes them only
where the handler has dealt with a record.  The memory after any number of polls is therefore a
fold over the records that have been handled (`Remembers`), whatever the broker, the handler and
the store of dead letters have answered, and an invariant of one such record is one of all
histories (`Bookkeeping`).
-/

namespace MuduoChat

open Std OutboxCode OrderedMap KafkaEventConsumer ConsumerState

/-! ### The containers -/

namespace ConsumerState

variable {s s' : ConsumerState} {capacity c : ℕ} {r : ConsumedOutboxRecord}
  {d : ConsumeDisposition}

/-- The second state remembers the same of conversations. -/
structure SameMemory (s s' : ConsumerState) : Prop where
  lastSeen : s'.lastSeen = s.lastSeen
  seenMessages : s'.seenMessages = s.seenMessages
  conversationOrder : s'.conversationOrder = s.conversationOrder

lemma SameMemory.refl (s : ConsumerState) : SameMemory s s := ⟨rfl, rfl, rfl⟩

lemma SameMemory.trans {s'' : ConsumerState} (h : SameMemory s s') (h' : SameMemory s' s'') :
    SameMemory s s'' :=
  ⟨h'.lastSeen.trans h.lastSeen, h'.seenMessages.trans h.seenMessages,
    h'.conversationOrder.trans h.conversationOrder⟩

lemma SameMemory.dropOldest (h : SameMemory s s') : SameMemory s.dropOldest s'.dropOldest := by
  unfold ConsumerState.dropOldest
  rw [h.conversationOrder]
  split
  · exact h
  · exact ⟨by simp only [h.lastSeen], by simp only [h.seenMessages], rfl⟩

lemma SameMemory.touchConversation (h : SameMemory s s') (capacity c : ℕ) :
    SameMemory (s.touchConversation capacity c) (s'.touchConversation capacity c) := by
  unfold ConsumerState.touchConversation
  rw [h.lastSeen, h.conversationOrder]
  split_ifs
  · exact h
  · exact ⟨h.dropOldest.lastSeen, h.dropOldest.seenMessages,
      by simp only [h.dropOldest.conversationOrder]⟩
  · exact ⟨h.lastSeen, h.seenMessages, by simp only [h.conversationOrder]⟩

lemma SameMemory.addSeen (h : SameMemory s s') (r : ConsumedOutboxRecord) :
    SameMemory (s.addSeen r) (s'.addSeen r) := by
  unfold ConsumerState.addSeen
  exact ⟨h.lastSeen, by simp only [h.seenMessages], h.conversationOrder⟩

lemma SameMemory.raiseLastSeen (h : SameMemory s s') (r : ConsumedOutboxRecord) :
    SameMemory (s.raiseLastSeen r) (s'.raiseLastSeen r) := by
  unfold ConsumerState.raiseLastSeen
  rw [h.lastSeen]
  split
  · split_ifs
    · exact ⟨rfl, h.seenMessages, h.conversationOrder⟩
    · exact h
  · exact ⟨rfl, h.seenMessages, h.conversationOrder⟩

lemma SameMemory.advance (h : SameMemory s s') (capacity : ℕ) (r : ConsumedOutboxRecord)
    (d : ConsumeDisposition) :
    SameMemory (s.advance capacity r d) (s'.advance capacity r d) := by
  have hadd : SameMemory (if d = .deadLettered then s else s.addSeen r)
      (if d = .deadLettered then s' else s'.addSeen r) := by
    split_ifs
    · exact h
    · exact h.addSeen r
  exact (hadd.touchConversation capacity r.conversationId).raiseLastSeen r

/-- The memory after some records have been handled. -/
def advanceAll (capacity : ℕ) (s : ConsumerState) (handled : Disposed) : ConsumerState :=
  handled.foldl (fun s e => s.advance capacity e.1 e.2) s

lemma SameMemory.advanceAll (h : SameMemory s s') (capacity : ℕ) (handled : Disposed) :
    SameMemory (s.advanceAll capacity handled) (s'.advanceAll capacity handled) := by
  induction handled generalizing s s' with
  | nil => exact h
  | cons e handled ih => exact ih (h.advance capacity e.1 e.2)

/-! ### One record -/

/-- What is done before a conversation that is new is put last. -/
def makeRoom (s : ConsumerState) (capacity : ℕ) : ConsumerState :=
  if capacity ≤ s.conversationOrder.length then s.dropOldest else s

/-- The memory of messages, after a record has been dealt with. -/
def noteSeen (s : ConsumerState) (r : ConsumedOutboxRecord) (d : ConsumeDisposition) :
    ConsumerState :=
  if d = .deadLettered then s else s.addSeen r

@[simp] lemma lastSeen_noteSeen (s : ConsumerState) (r : ConsumedOutboxRecord)
    (d : ConsumeDisposition) : (s.noteSeen r d).lastSeen = s.lastSeen := by
  unfold noteSeen
  split_ifs <;> rfl

@[simp] lemma conversationOrder_noteSeen (s : ConsumerState) (r : ConsumedOutboxRecord)
    (d : ConsumeDisposition) : (s.noteSeen r d).conversationOrder = s.conversationOrder := by
  unfold noteSeen
  split_ifs <;> rfl

lemma mem_seenMessages_noteSeen (h : c ∈ (s.noteSeen r d).seenMessages) :
    c = r.conversationId ∨ c ∈ s.seenMessages := by
  unfold noteSeen at h
  split_ifs at h
  · exact .inr h
  · rcases TreeMap.mem_insert.1 h with heq | hmem
    · exact .inl (LawfulEqOrd.eq_of_compare heq).symm
    · exact .inr hmem

lemma advance_of_tracked {q m : ℕ} (h : s.lastSeen[r.conversationId]? = some (q, m)) :
    s.advance capacity r d =
      if q < r.sequence then
        { s.noteSeen r d with
          lastSeen := s.lastSeen.insert r.conversationId (r.sequence, r.messageId) }
      else s.noteSeen r d := by
  have hmem : (s.noteSeen r d).lastSeen.contains r.conversationId = true := by
    rw [lastSeen_noteSeen, TreeMap.contains_eq_isSome_getElem?, h]
    rfl
  have htouch : (s.noteSeen r d).touchConversation capacity r.conversationId = s.noteSeen r d :=
    if_pos hmem
  have hadvance : s.advance capacity r d =
      ((s.noteSeen r d).touchConversation capacity r.conversationId).raiseLastSeen r := rfl
  rw [hadvance, htouch, raiseLastSeen, lastSeen_noteSeen, h]

lemma advance_of_new (h : s.lastSeen[r.conversationId]? = none) :
    s.advance capacity r d =
      { (s.noteSeen r d).makeRoom capacity with
        conversationOrder :=
          ((s.noteSeen r d).makeRoom capacity).conversationOrder ++ [r.conversationId]
        lastSeen := ((s.noteSeen r d).makeRoom capacity).lastSeen.insert r.conversationId
          (r.sequence, r.messageId) } := by
  have hmem : (s.noteSeen r d).lastSeen.contains r.conversationId = false := by
    rw [lastSeen_noteSeen, TreeMap.contains_eq_isSome_getElem?, h]
    rfl
  have htouch : (s.noteSeen r d).touchConversation capacity r.conversationId =
      { (s.noteSeen r d).makeRoom capacity with
        conversationOrder :=
          ((s.noteSeen r d).makeRoom capacity).conversationOrder ++ [r.conversationId] } :=
    if_neg (by rw [hmem]; decide)
  -- the conversation that is forgotten is another one
  have hnone : ((s.noteSeen r d).makeRoom capacity).lastSeen[r.conversationId]? = none := by
    unfold makeRoom dropOldest
    split_ifs
    · split
      · rw [lastSeen_noteSeen, h]
      · simp only [getElem?_erase, lastSeen_noteSeen, h, ite_self]
    · rw [lastSeen_noteSeen, h]
  have hadvance : s.advance capacity r d =
      ((s.noteSeen r d).touchConversation capacity r.conversationId).raiseLastSeen r := rfl
  rw [hadvance, htouch]
  unfold raiseLastSeen
  simp only [hnone]

end ConsumerState

/-! ### The invariant -/

open ConsumerState

/-- What the containers have in common, after some records have been handled. -/
structure Bookkeeping (capacity : ℕ) (handled : Disposed) (s : ConsumerState) : Prop where
  nodup : s.conversationOrder.Nodup
  mem_order : ∀ c, c ∈ s.conversationOrder ↔ c ∈ s.lastSeen
  length_le : s.conversationOrder.length ≤ capacity
  mem_lastSeen : ∀ c ∈ s.seenMessages, c ∈ s.lastSeen
  last : ∀ c q m, s.lastSeen[c]? = some (q, m) →
    ∃ e ∈ handled, e.1.conversationId = c ∧ e.1.sequence = q ∧ e.1.messageId = m

variable {capacity c : ℕ} {handled : Disposed} {s s' : ConsumerState} {r : ConsumedOutboxRecord}
  {d : ConsumeDisposition}

lemma bookkeeping_initial (capacity : ℕ) : Bookkeeping capacity [] {} where
  nodup := List.nodup_nil
  mem_order c := by simp
  length_le := Nat.zero_le _
  mem_lastSeen c hc := by simp at hc
  last c q m h := by simp at h

lemma Bookkeeping.congr (h : Bookkeeping capacity handled s) (hs : SameMemory s s') :
    Bookkeeping capacity handled s' where
  nodup := by rw [hs.conversationOrder]; exact h.nodup
  mem_order c := by rw [hs.conversationOrder, hs.lastSeen]; exact h.mem_order c
  length_le := by rw [hs.conversationOrder]; exact h.length_le
  mem_lastSeen c := by rw [hs.seenMessages, hs.lastSeen]; exact h.mem_lastSeen c
  last c q m := by rw [hs.lastSeen]; exact h.last c q m

/-- What holds between the eviction and the entry of a new conversation. -/
structure HasRoom (capacity c : ℕ) (s s' : ConsumerState) : Prop where
  nodup : s'.conversationOrder.Nodup
  mem_order : ∀ x, x ∈ s'.conversationOrder ↔ x ∈ s'.lastSeen
  length_lt : s'.conversationOrder.length < capacity
  mem_lastSeen : ∀ x ∈ s'.seenMessages, x = c ∨ x ∈ s'.lastSeen
  kept : ∀ (x : ℕ) v, s'.lastSeen[x]? = some v → s.lastSeen[x]? = some v

lemma Bookkeeping.makeRoom (h : Bookkeeping capacity handled s) (hpos : 0 < capacity)
    (r : ConsumedOutboxRecord) (d : ConsumeDisposition) :
    HasRoom capacity r.conversationId s ((s.noteSeen r d).makeRoom capacity) := by
  have hseen : ∀ x ∈ (s.noteSeen r d).seenMessages, x = r.conversationId ∨ x ∈ s.lastSeen :=
    fun x hx => (mem_seenMessages_noteSeen hx).imp_right (h.mem_lastSeen x)
  unfold ConsumerState.makeRoom
  split_ifs with hfull
  · unfold ConsumerState.dropOldest
    split
    · rename_i hempty
      rw [hempty, List.length_nil] at hfull
      omega
    · rename_i oldest rest hcons
      have horder : s.conversationOrder = oldest :: rest := by
        rw [← hcons, conversationOrder_noteSeen]
      have hnodup := h.nodup
      have hlength := h.length_le
      rw [horder] at hnodup hlength
      obtain ⟨hnotin, hnodup⟩ := List.nodup_cons.1 hnodup
      have hmem : ∀ x, x ∈ s.lastSeen.erase oldest ↔ x ≠ oldest ∧ x ∈ s.lastSeen := by
        intro x
        rw [TreeMap.mem_erase]
        simp only [ne_eq, Nat.compare_eq_eq, eq_comm (a := oldest)]
      refine ⟨hnodup, fun x => ?_, ?_, fun x hx => ?_, fun x v hv => ?_⟩
      · rw [lastSeen_noteSeen, hmem, ← h.mem_order, horder, List.mem_cons]
        constructor
        · intro hx
          exact ⟨fun heq => hnotin (heq ▸ hx), .inr hx⟩
        · rintro ⟨hne, heq | hx⟩
          · exact absurd heq hne
          · exact hx
      · rw [List.length_cons] at hlength
        exact hlength
      · simp only [TreeMap.mem_erase, ne_eq, Nat.compare_eq_eq] at hx
        rcases hseen x hx.2 with heq | hlast
        · exact .inl heq
        · rw [lastSeen_noteSeen, hmem]
          exact .inr ⟨fun heq => hx.1 heq.symm, hlast⟩
      · rw [lastSeen_noteSeen, getElem?_erase] at hv
        split_ifs at hv
        exact hv
  · refine ⟨?_, fun x => ?_, ?_, fun x hx => ?_, fun x v hv => ?_⟩
    · rw [conversationOrder_noteSeen]
      exact h.nodup
    · rw [conversationOrder_noteSeen, lastSeen_noteSeen]
      exact h.mem_order x
    · omega
    · rw [lastSeen_noteSeen]
      exact hseen x hx
    · rw [lastSeen_noteSeen] at hv
      exact hv

/-- **One record.**  The containers fit together after a record has been handled. -/
lemma Bookkeeping.advance (h : Bookkeeping capacity handled s) (hpos : 0 < capacity)
    (r : ConsumedOutboxRecord) (d : ConsumeDisposition) :
    Bookkeeping capacity (handled ++ [(r, d)]) (s.advance capacity r d) := by
  have hold : ∀ (x q m : ℕ), s.lastSeen[x]? = some (q, m) → ∃ e ∈ handled ++ [(r, d)],
      e.1.conversationId = x ∧ e.1.sequence = q ∧ e.1.messageId = m := by
    intro x q m hx
    obtain ⟨e, he, hfacts⟩ := h.last x q m hx
    exact ⟨e, List.mem_append_left _ he, hfacts⟩
  have hnew : ∃ e ∈ handled ++ [(r, d)], e.1.conversationId = r.conversationId ∧
      e.1.sequence = r.sequence ∧ e.1.messageId = r.messageId :=
    ⟨(r, d), List.mem_append_right _ List.mem_cons_self, rfl, rfl, rfl⟩
  -- an entry of a table in which the entry of the record has been written
  have hinsert {t : TreeMap ℕ (ℕ × ℕ)} (ht : ∀ (x : ℕ) v, t[x]? = some v → s.lastSeen[x]? = some v)
      {x q m : ℕ} (hx : (t.insert r.conversationId (r.sequence, r.messageId))[x]? = some (q, m)) :
      ∃ e ∈ handled ++ [(r, d)],
        e.1.conversationId = x ∧ e.1.sequence = q ∧ e.1.messageId = m := by
    rw [getElem?_insert] at hx
    split_ifs at hx with heq
    · cases hx
      subst heq
      exact hnew
    · exact hold x q m (ht x _ hx)
  cases hlast : s.lastSeen[r.conversationId]? with
  | some v =>
    have htracked : r.conversationId ∈ s.lastSeen := by
      rw [TreeMap.mem_iff_isSome_getElem?, hlast]
      rfl
    have hkeys : ∀ x, x ∈ s.lastSeen.insert r.conversationId (r.sequence, r.messageId) ↔
        x ∈ s.lastSeen := by
      intro x
      simp only [TreeMap.mem_insert, Nat.compare_eq_eq, or_iff_right_iff_imp]
      rintro rfl
      exact htracked
    have hseen : ∀ x ∈ (s.noteSeen r d).seenMessages, x ∈ s.lastSeen := by
      intro x hx
      rcases mem_seenMessages_noteSeen hx with rfl | hmem
      · exact htracked
      · exact h.mem_lastSeen x hmem
    rw [advance_of_tracked hlast]
    split_ifs
    · refine ⟨?_, fun x => ?_, ?_, fun x hx => (hkeys x).2 (hseen x hx), fun x q m hx => ?_⟩
      · rw [conversationOrder_noteSeen]
        exact h.nodup
      · rw [conversationOrder_noteSeen, hkeys]
        exact h.mem_order x
      · rw [conversationOrder_noteSeen]
        exact h.length_le
      · exact hinsert (fun _ _ => id) hx
    · refine ⟨?_, fun x => ?_, ?_, fun x hx => ?_, fun x q m hx => ?_⟩
      · rw [conversationOrder_noteSeen]
        exact h.nodup
      · rw [conversationOrder_noteSeen, lastSeen_noteSeen]
        exact h.mem_order x
      · rw [conversationOrder_noteSeen]
        exact h.length_le
      · rw [lastSeen_noteSeen]
        exact hseen x hx
      · rw [lastSeen_noteSeen] at hx
        exact hold x q m hx
  | none =>
    have hroom := h.makeRoom hpos r d
    have hnotin : r.conversationId ∉
        ((s.noteSeen r d).makeRoom capacity).conversationOrder := by
      rw [hroom.mem_order, TreeMap.mem_iff_isSome_getElem?]
      intro hsome
      obtain ⟨v, hv⟩ := Option.isSome_iff_exists.1 hsome
      rw [hroom.kept _ v hv] at hlast
      cases hlast
    rw [advance_of_new hlast]
    refine ⟨?_, fun x => ?_, ?_, fun x hx => ?_, fun x q m hx => ?_⟩
    · refine List.nodup_append.2 ⟨hroom.nodup, List.nodup_singleton _, ?_⟩
      rintro x hx y hy rfl
      obtain rfl := List.mem_singleton.1 hy
      exact hnotin hx
    · simp only [List.mem_append, List.mem_singleton, TreeMap.mem_insert, Nat.compare_eq_eq,
        hroom.mem_order]
      constructor
      · rintro (hx | rfl)
        · exact .inr hx
        · exact .inl rfl
      · rintro (rfl | hx)
        · exact .inr rfl
        · exact .inl hx
    · simp only [List.length_append, List.length_singleton]
      exact hroom.length_lt
    · simp only [TreeMap.mem_insert, Nat.compare_eq_eq]
      exact (hroom.mem_lastSeen x hx).imp_left Eq.symm
    · exact hinsert hroom.kept hx

/-- **Any number of records.** -/
lemma bookkeeping_advanceAll (hpos : 0 < capacity) (handled : Disposed) :
    Bookkeeping capacity handled (advanceAll capacity {} handled) := by
  induction handled using List.reverseRecOn with
  | nil => exact bookkeeping_initial capacity
  | append_singleton handled e ih =>
    have hstep := ih.advance hpos e.1 e.2
    have hfold : advanceAll capacity {} (handled ++ [e]) =
        (advanceAll capacity {} handled).advance capacity e.1 e.2 := by
      simp only [advanceAll, List.foldl_append, List.foldl_cons, List.foldl_nil]
    rw [hfold]
    exact hstep

lemma sequence_le_of_advance {q m q' m' : ℕ} (h : s.lastSeen[c]? = some (q, m))
    (h' : (s.advance capacity r d).lastSeen[c]? = some (q', m')) : q ≤ q' := by
  cases hlast : s.lastSeen[r.conversationId]? with
  | some v =>
    rw [advance_of_tracked hlast] at h'
    split_ifs at h' with hlt
    · rw [getElem?_insert] at h'
      split_ifs at h' with heq
      · subst heq
        rw [hlast] at h
        cases h
        cases h'
        omega
      · rw [h] at h'
        cases h'
        exact le_rfl
    · rw [lastSeen_noteSeen, h] at h'
      cases h'
      exact le_rfl
  | none =>
    have hne : r.conversationId ≠ c := by
      rintro rfl
      rw [h] at hlast
      cases hlast
    rw [advance_of_new hlast] at h'
    simp only [getElem?_insert_of_ne _ _ hne] at h'
    -- another conversation is forgotten or left as it is
    have hkept : ((s.noteSeen r d).makeRoom capacity).lastSeen[c]? = s.lastSeen[c]? ∨
        ((s.noteSeen r d).makeRoom capacity).lastSeen[c]? = none := by
      unfold makeRoom dropOldest
      split_ifs
      · split
        · exact .inl (by rw [lastSeen_noteSeen])
        · simp only [getElem?_erase, lastSeen_noteSeen]
          split_ifs
          · exact .inr rfl
          · exact .inl rfl
      · exact .inl (by rw [lastSeen_noteSeen])
    rcases hkept with heq | hnone
    · rw [heq, h] at h'
      cases h'
      exact le_rfl
    · rw [hnone] at h'
      cases h'

/-! ### Polls -/

/-- The record that the handler has dealt with at a call. -/
def handledAt : Answered OutboxPort → Option (ConsumedOutboxRecord × ConsumeDisposition)
  | ⟨.handle r, .ok d⟩ => some (r, d)
  | _ => none

/-- The records that the handler has dealt with, in order. -/
def handledIn (calls : List (Answered OutboxPort)) : Disposed := calls.filterMap handledAt

lemma handledIn_append (l l' : List (Answered OutboxPort)) :
    handledIn (l ++ l') = handledIn l ++ handledIn l' :=
  List.filterMap_append

/-- However its calls are answered, the program ends with the memory that the records leave behind
that have been handled meanwhile.  The memory is a part of the value in which it ends. -/
def Remembers {α : Type} (capacity : ℕ) (memory : α → ConsumerState) (s : ConsumerState)
    (p : OutboxCode α) : Prop :=
  ∀ l a, p.Traced l (.ok a) → SameMemory (s.advanceAll capacity (handledIn l)) (memory a)

section Rules

variable {α β : Type} {memory : α → ConsumerState} {memory' : β → ConsumerState}

lemma remembers_ret {a : α} (h : SameMemory s (memory a)) :
    Remembers capacity memory s (pure a) := by
  intro l b hl
  cases hl
  exact h

lemma Remembers.congr {p : OutboxCode α} (h : SameMemory s s')
    (hp : Remembers capacity memory s' p) : Remembers capacity memory s p :=
  fun l a hl => (h.advanceAll capacity (handledIn l)).trans (hp l a hl)

lemma Remembers.bind {p : OutboxCode α} {f : α → OutboxCode β}
    (hp : Remembers capacity memory s p)
    (hf : ∀ a, Remembers capacity memory' (memory a) (f a)) :
    Remembers capacity memory' s (p >>= f) := by
  intro l b hl
  rcases hl.of_bind with ⟨e, he, -⟩ | ⟨a, l1, l2, rfl, ha, hb⟩
  · cases he
  · have hfold : s.advanceAll capacity (handledIn l1 ++ handledIn l2) =
        (s.advanceAll capacity (handledIn l1)).advanceAll capacity (handledIn l2) :=
      List.foldl_append
    rw [handledIn_append, hfold]
    exact ((hp l1 a ha).advanceAll capacity (handledIn l2)).trans (hf a l2 b hb)

lemma Remembers.ask_bind {c : OutboxCall} {f : c.Value → OutboxCode β}
    (hc : ∀ v, handledAt ⟨c, .ok v⟩ = none) (hf : ∀ v, Remembers capacity memory' s (f v)) :
    Remembers capacity memory' s (ask c >>= f) := by
  intro l b hl
  rcases hl.of_bind with ⟨e, he, -⟩ | ⟨v, l1, l2, rfl, hv, hb⟩
  · cases he
  · have hnone : handledIn l1 = [] := by
      rw [hv.of_ask]
      exact List.filterMap_cons_none (hc v)
    rw [handledIn_append, hnone, List.nil_append]
    exact hf v l2 b hb

lemma Remembers.ite {b : Prop} [Decidable b] {p q : OutboxCode α}
    (hp : Remembers capacity memory s p) (hq : Remembers capacity memory s q) :
    Remembers capacity memory s (if b then p else q) := by
  split_ifs
  · exact hp
  · exact hq

lemma remembers_catchAll {c : OutboxCall} {f : c.Value → α} {a : α}
    (hok : ∀ v, SameMemory (s.advanceAll capacity (handledIn [⟨c, .ok v⟩])) (memory (f v)))
    (herror : ∀ e, handledAt ⟨c, .error e⟩ = none) (hcaught : SameMemory s (memory a)) :
    Remembers capacity memory s (catchAll (ask c >>= fun v => pure (f v)) (pure a)) := by
  intro l b hl
  rcases hl.of_tryCatch with ⟨b', hb, hend⟩ | ⟨e, l1, l2, rfl, herr, hend⟩
  · rcases hend.of_bind with ⟨e, he, -⟩ | ⟨v, l1, l2, rfl, hv, hret⟩
    · cases he
    · rw [hv.of_ask]
      cases hb
      cases hret
      exact hok v
  · rcases herr.of_bind with ⟨e', he, hask⟩ | ⟨v, l1, l3, rfl, -, hret⟩
    · cases he
      have hnone : handledIn l1 = [] := by
        rw [hask.of_ask]
        exact List.filterMap_cons_none (herror _)
      cases hend
      rw [List.append_nil, hnone]
      exact hcaught
    · cases hret

end Rules

namespace KafkaEventConsumer

variable {K : KafkaEventConsumer}

lemma processRecord_remembers (s : ConsumerState) (raw : FetchedRecord) :
    Remembers K.seenConversationsCapacity Prod.snd s (K.processRecord s raw) := by
  unfold processRecord
  split
  · exact remembers_catchAll (fun _ => SameMemory.refl s) (fun _ => rfl) (SameMemory.refl s)
  · exact Remembers.ask_bind (fun _ => rfl) fun _ => remembers_ret (SameMemory.refl s)
  · exact remembers_catchAll (fun _ => SameMemory.refl _) (fun _ => rfl) (SameMemory.refl s)

lemma processAll_remembers (s : ConsumerState) (done : Disposed) (raws : List FetchedRecord) :
    Remembers K.seenConversationsCapacity (fun a => a.2.2) s (K.processAll s done raws) := by
  induction raws generalizing s done with
  | nil => exact remembers_ret (SameMemory.refl s)
  | cons raw rest ih =>
    rw [processAll]
    refine Remembers.ite ?_ (remembers_ret (SameMemory.refl s))
    refine (processRecord_remembers s raw).bind fun a => ?_
    obtain ⟨outcome, s1⟩ := a
    cases outcome with
    | none => exact remembers_ret (SameMemory.refl s1)
    | some d => exact ih s1 (done ++ [d])

lemma commitBatch_remembers (s : ConsumerState) (done : Disposed) :
    Remembers capacity Prod.snd s (commitBatch s done) := by
  refine Remembers.ask_bind (fun _ => rfl) fun answer => ?_
  cases answer with
  | ok codes | refused | closed => exact remembers_ret ⟨rfl, rfl, rfl⟩

lemma consume_remembers (s : ConsumerState) (fetched : List FetchedRecord) :
    Remembers K.seenConversationsCapacity Prod.snd s (K.consume s fetched) := by
  refine (processAll_remembers s [] fetched).bind fun a => ?_
  obtain ⟨aborted, done, s1⟩ := a
  refine Remembers.ite (remembers_ret (SameMemory.refl s1)) ?_
  refine Remembers.ite (remembers_ret (SameMemory.refl s1)) ?_
  -- the hook decides whether the offsets are committed
  have hhook : Remembers K.seenConversationsCapacity (fun _ => s1) s1
      (catchAll (ask .preCommitHook >>= fun _ => pure true) (pure false)) :=
    remembers_catchAll (fun _ => SameMemory.refl s1) (fun _ => rfl) (SameMemory.refl s1)
  refine hhook.bind fun goOn => ?_
  exact Remembers.ite (commitBatch_remembers s1 done) (remembers_ret (SameMemory.refl s1))

lemma fetchFrom_remembers (s : ConsumerState) :
    Remembers capacity Prod.snd s (fetchFrom s) := by
  refine Remembers.ask_bind (fun _ => rfl) fun answer => ?_
  cases answer with
  | ok response =>
    simp only [settle]
    split
    · exact remembers_ret ⟨rfl, rfl, rfl⟩
    · exact remembers_ret (SameMemory.refl s)
  | refused | closed => exact remembers_ret ⟨rfl, rfl, rfl⟩

lemma rewind_remembers (s : ConsumerState) (partitions : List ℤ) :
    Remembers capacity Prod.snd s (rewind s partitions) := by
  induction partitions generalizing s with
  | nil => exact remembers_ret (SameMemory.refl s)
  | cons p rest ih =>
    refine Remembers.ask_bind (fun _ => rfl) fun answer => ?_
    cases answer with
    | ok offsets =>
      simp only [settle]
      refine Remembers.congr ?_ (ih _)
      exact ⟨rfl, rfl, rfl⟩
    | refused | closed => exact remembers_ret ⟨rfl, rfl, rfl⟩

lemma findStarts_remembers (s : ConsumerState) (committed : TreeMap ℤ ℤ) :
    Remembers capacity Prod.snd s (findStarts s committed) := by
  refine Remembers.ask_bind (fun _ => rfl) fun first => ?_
  cases first with
  | ok earliest =>
    refine Remembers.ite ?_ (remembers_ret ⟨rfl, rfl, rfl⟩)
    refine Remembers.ask_bind (fun _ => rfl) fun last => ?_
    cases last with
    | ok latest | refused | closed => exact remembers_ret ⟨rfl, rfl, rfl⟩
  | refused | closed => exact remembers_ret ⟨rfl, rfl, rfl⟩

lemma assign_remembers (s : ConsumerState) : Remembers capacity Prod.snd s (assign s) := by
  refine Remembers.ask_bind (fun _ => rfl) fun metadata => ?_
  cases metadata with
  | ok parts =>
    refine Remembers.ask_bind (fun _ => rfl) fun offsets => ?_
    cases offsets with
    | ok answer =>
      simp only [settle]
      refine Remembers.congr ?_ (findStarts_remembers _ _)
      exact ⟨rfl, rfl, rfl⟩
    | refused | closed => exact remembers_ret ⟨rfl, rfl, rfl⟩
  | refused | closed => exact remembers_ret ⟨rfl, rfl, rfl⟩

lemma fetchAndConsume_remembers (s : ConsumerState) :
    Remembers K.seenConversationsCapacity Prod.snd s (K.fetchAndConsume s) := by
  refine (fetchFrom_remembers s).bind fun a => ?_
  obtain ⟨fetched, s1⟩ := a
  cases fetched with
  | none => exact remembers_ret (SameMemory.refl s1)
  | some f =>
    refine (rewind_remembers s1 f.2).bind fun b => ?_
    exact Remembers.ite (consume_remembers b.2 f.1) (remembers_ret (SameMemory.refl b.2))

/-- **One poll** remembers exactly what the handler has dealt with in it. -/
lemma pollFrom_remembers (s : ConsumerState) :
    Remembers K.seenConversationsCapacity Prod.snd s (K.pollFrom s) := by
  have hconnect : Remembers K.seenConversationsCapacity Prod.snd s (connect s) := by
    refine Remembers.ite (remembers_ret (SameMemory.refl s)) ?_
    exact Remembers.ask_bind (fun _ => rfl) fun _ => remembers_ret ⟨rfl, rfl, rfl⟩
  have hassign (s : ConsumerState) :
      Remembers K.seenConversationsCapacity Prod.snd s (ensureAssigned s) :=
    Remembers.ite (remembers_ret (SameMemory.refl s)) (assign_remembers s)
  refine Remembers.ask_bind (fun _ => rfl) fun _ => hconnect.bind fun a => ?_
  refine Remembers.ite ?_ (remembers_ret (SameMemory.refl a.2))
  refine (hassign a.2).bind fun b => ?_
  exact Remembers.ite (fetchAndConsume_remembers b.2) (remembers_ret (SameMemory.refl b.2))

end KafkaEventConsumer

/-! ### Histories -/

/-- The polls of a consumer from its construction on: the records that have been handled so far,
and the state. -/
inductive Polls (K : KafkaEventConsumer) : Disposed → ConsumerState → Prop where
  | none : Polls K [] {}
  | poll {handled : Disposed} {s s' : ConsumerState} {calls : List (Answered OutboxPort)}
      {result : OutboxConsumeResult} (h : Polls K handled s)
      (hpoll : (K.pollFrom s).Traced calls (.ok (result, s'))) :
      Polls K (handled ++ handledIn calls) s'

lemma Polls.sameMemory {K : KafkaEventConsumer} (h : Polls K handled s) :
    SameMemory (advanceAll K.seenConversationsCapacity {} handled) s := by
  induction h with
  | none => exact SameMemory.refl _
  | @poll handled s s' calls result _ hpoll ih =>
    have hfold : advanceAll K.seenConversationsCapacity {}
        (handled ++ handledIn calls) =
        (advanceAll K.seenConversationsCapacity {} handled).advanceAll
          K.seenConversationsCapacity (handledIn calls) := List.foldl_append
    rw [hfold]
    exact (ih.advanceAll _ _).trans (pollFrom_remembers s calls (result, s') hpoll)

/-- The memory of a consumer when it has handled the first records of a history. -/
def memoryAfter (K : KafkaEventConsumer) (handled : Disposed) (n : ℕ) : ConsumerState :=
  ConsumerState.advanceAll K.seenConversationsCapacity {} (handled.take n)

lemma memoryAfter_succ {K : KafkaEventConsumer} {n : ℕ} (h : n < handled.length) :
    memoryAfter K handled (n + 1) =
      (memoryAfter K handled n).advance K.seenConversationsCapacity handled[n].1 handled[n].2 := by
  rw [memoryAfter, memoryAfter, List.take_succ_eq_append_getElem h]
  simp only [advanceAll, List.foldl_append, List.foldl_cons, List.foldl_nil]

/-- **Consumer bookkeeping.**  After every history of polls, and after each record on the way, the
containers of the consumer fit together, and the last sequence of a conversation does not decrease
while the conversation is tracked. -/
theorem consumer_bookkeeping {K : KafkaEventConsumer} (h : Polls K handled s) :
    Bookkeeping K.seenConversationsCapacity handled s ∧
      SameMemory (memoryAfter K handled handled.length) s ∧
      (∀ n, Bookkeeping K.seenConversationsCapacity (handled.take n) (memoryAfter K handled n)) ∧
      ∀ c n n' q m q' m', n ≤ n' → n' ≤ handled.length →
        (∀ j, n ≤ j → j ≤ n' → c ∈ (memoryAfter K handled j).lastSeen) →
        (memoryAfter K handled n).lastSeen[c]? = some (q, m) →
        (memoryAfter K handled n').lastSeen[c]? = some (q', m') → q ≤ q' := by
  have hall (handled : Disposed) := bookkeeping_advanceAll K.capacity_pos handled
  refine ⟨(hall handled).congr h.sameMemory, ?_, fun n => hall (handled.take n), ?_⟩
  · rw [memoryAfter, List.take_length]
    exact h.sameMemory
  · intro c n n' q m q' m' hn
    induction n', hn using Nat.le_induction generalizing q' m' with
    | base =>
      intro _ _ hq hq'
      rw [hq] at hq'
      cases hq'
      exact le_rfl
    | succ n' hle ih =>
      intro hlength htracked hq hq'
      obtain ⟨v, hv⟩ := Option.isSome_iff_exists.1
        (TreeMap.mem_iff_isSome_getElem?.1 (htracked n' hle (by omega)))
      have hbefore := ih v.1 v.2 (by omega)
        (fun j hj hj' => htracked j hj (by omega)) hq hv
      rw [memoryAfter_succ (by omega)] at hq'
      exact hbefore.trans (sequence_le_of_advance hv hq')

/-- A consumer that remembers one conversation.  It reads every value as the first message of a
conversation, whose number is the length of the value. -/
def oneConversation : KafkaEventConsumer where
  seenConversationsCapacity := 1
  parse value := some (.obj [("message_id", .unsigned value.length), ("sequence", .unsigned 1),
    ("conversation_id", .unsigned value.length), ("event_type", .str "MessageAccepted"),
    ("payload", .str "")])

/-- A broker with one partition and three records, and a handler that advances. -/
def threeRecords : (c : OutboxCall) → Except OutboxFault c.Value
  | .connectTo => .ok true
  | .metadataPartitions => .ok (.ok [0])
  | .offsetFetchAll _ => .ok (.ok [])
  | .listOffsets _ _ => .ok (.ok [(0, 0)])
  | .fetchAll _ =>
    .ok (.ok [{ partition := 0, batches := some [⟨0, 2, [(0, "a"), (1, "bb"), (2, "a")]⟩] }])
  | .handle _ => .ok .advanced
  | .offsetCommitAll _ => .ok (.ok [(0, 0)])
  | .record _ => .ok ()
  | .duplicate _ => .ok ()
  | .recordDeadLetter _ => .ok ()
  | .preCommitHook => .ok ()
  | _ => .error .std

/-- A poll in which the second conversation takes the place of the first one, and the first one its
place again, so that its record is handled twice. -/
theorem consumer_bookkeeping_evicting :
    ∃ handled s, Polls oneConversation handled s ∧
      handled.map (fun e => e.1.conversationId) = [1, 2, 1] ∧ s.conversationOrder = [1] ∧
      Bookkeeping 1 handled s := by
  have hpoll : (((oneConversation.pollFrom {}).respond threeRecords).bind fun x =>
      x.2.toOption.map fun y =>
        ((handledIn x.1).map (fun e => e.1.conversationId), y.2.conversationOrder)) =
      some ([1, 2, 1], [1]) := by
    decide +kernel
  obtain ⟨⟨calls, r⟩, hr, hmemory⟩ := Option.bind_eq_some_iff.1 hpoll
  obtain ⟨⟨result, s⟩, hok, hmemory⟩ := Option.map_eq_some_iff.1 hmemory
  obtain ⟨hhandled, horder⟩ := Prod.mk.inj hmemory
  cases r with
  | error e => cases hok
  | ok a =>
    cases hok
    have hpolls : Polls oneConversation (handledIn calls) s :=
      Polls.none.poll (Prog.traced_of_respond hr)
    exact ⟨handledIn calls, s, hpolls, hhandled, horder, (consumer_bookkeeping hpolls).1⟩

end MuduoChat
