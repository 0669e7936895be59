import MuduoChat.Gateway.Runs

/-!
# Head-of-line delivery

For each recipient and conversation at most one row is in flight, and it comes before all
other rows that are still open.  Nothing is handed to the sink before everything that comes
earlier is settled.
-/

namespace MuduoChat

open Std InMemoryMessageStore

variable {ι : Type}

/-- Two rows that the order of a conversation relates. -/
def SameLine (d d' : Delivery) : Prop :=
  d'.recipient = d.recipient ∧ d'.conversationId = d.conversationId

/-- Delivery follows the order of each conversation. -/
structure HeadOfLine (a : Setup.State ι) : Prop where
  /-- At most one row of a recipient and a conversation is in flight. -/
  single : ∀ k k' d d', a.world.store.row k = some d → a.world.store.row k' = some d' →
    SameLine d d' → d.state = .inFlight → d'.state = .inFlight → k' = k
  /-- A row in flight has the smallest sequence of the rows that are not terminal. -/
  first : ∀ k k' d d', a.world.store.row k = some d → a.world.store.row k' = some d' →
    SameLine d d' → d.state = .inFlight → d'.state.terminal = false →
    a.world.store.sequenceOf d ≤ a.world.store.sequenceOf d'
  /-- When the sink is called, every earlier row is terminal. -/
  settled : ∀ r attempt cont, a.running = some r →
    r.rest = .call (E := Port) (.deliver attempt) cont →
    ∀ k d, a.world.store.row k = some d → d.recipient = attempt.recipient →
      d.conversationId = attempt.conversationId →
      a.world.store.sequenceOf d < attempt.sequence.value →
      d.state = .acknowledged ∨ d.state = .expired

lemma InMemoryMessageStore.Rows.key_eq_of_sequenceOf {s : InMemoryMessageStore} (hrows : s.Rows)
    (hmsgs : s.Messages) {k k' : DeliveryKey} {d d' : Delivery} (hd : s.row k = some d)
    (hd' : s.row k' = some d') (hline : SameLine d d')
    (hseq : s.sequenceOf d = s.sequenceOf d') : k' = k := by
  obtain ⟨m, hm, hconv, -⟩ := hrows.message hd
  obtain ⟨m', hm', hconv', -⟩ := hrows.message hd'
  rw [sequenceOf_eq hm, sequenceOf_eq hm'] at hseq
  have hcc : m.conversationId = m'.conversationId := by rw [hconv, hconv', hline.2]
  have hlt := hmsgs.sequence_lt_iff hm hm' hcc
  have hgt := hmsgs.sequence_lt_iff hm' hm hcc.symm
  have hid : d'.messageId.value = d.messageId.value := by omega
  rw [← hrows.key_eq hd, ← hrows.key_eq hd', Delivery.key, Delivery.key, hid, hline.1]

variable [DecidableEq ι] {S : Setup ι} {a : Setup.State ι}

/-- **Head-of-line delivery.**  In every state of every run, for any clock and any answers of
the sink, delivery follows the order of each conversation. -/
theorem head_of_line (h : S.Reachable a) : HeadOfLine a := by
  have first (k k' : DeliveryKey) (d d' : Delivery) (hd : a.world.store.row k = some d)
      (hd' : a.world.store.row k' = some d') (hline : SameLine d d') (hfly : d.state = .inFlight)
      (hopen : d'.state.terminal = false) :
      a.world.store.sequenceOf d ≤ a.world.store.sequenceOf d' := by
    by_contra hlt
    have hterm := h.rows.head hd hfly k' d' hd' hline.1 hline.2 (by omega)
    rw [hopen] at hterm
    exact absurd hterm (by simp)
  refine ⟨?_, first, ?_⟩
  · intro k k' d d' hd hd' hline hfly hfly'
    have hle := first k k' d d' hd hd' hline hfly (by simp [hfly'])
    have hge := first k' k d' d hd' hd ⟨hline.1.symm, hline.2.symm⟩ hfly' (by simp [hfly])
    exact h.rows.key_eq_of_sequenceOf h.messages hd hd' hline (by omega)
  · intro r attempt cont hr hrest k d hd hrec hconv hlt
    have hsat := h.sound.rest r hr
    rw [hrest] at hsat
    obtain ⟨cur, message, hcur, hm, -, hhead, rfl⟩ := (hsat a.world rfl h.sound.inv).1
    have hfill := a.world.store.fillSequence_eq cur
    have hterm : d.state.terminal = true := by
      refine hhead k d hd ?_ ?_ hlt
      · rw [hrec, Coordinator.attemptFor, hfill]
      · rw [hconv, Coordinator.attemptFor, hfill]
    revert hterm
    cases d.state <;> simp

/-- Two messages for a user who is online, in the middle of the second `accept`: the first
message has been handed to the sink, the second one waits. -/
def oneInFlight : Setup.State Bool :=
  Setup.pair.system.play (.initial {})
    [⟨true, .sessionAvailable ⟨⟨2⟩, 1⟩, { now := 1000 }, 100⟩,
      ⟨true, .accept ⟨⟨1⟩, 1⟩ (directTo 2 ⟨"a", valid_a⟩), { now := 1000, disposition := .accepted }, 100⟩,
      ⟨true, .accept ⟨⟨1⟩, 1⟩ (directTo 2 ⟨"b", valid_b⟩), { now := 1001, disposition := .accepted }, 9⟩]

theorem head_of_line_oneInFlight :
    (oneInFlight.world.store.row ⟨1, 2⟩).map Delivery.state = some .inFlight ∧
      (oneInFlight.world.store.row ⟨2, 2⟩).map Delivery.state = some .pending ∧
      HeadOfLine oneInFlight :=
  ⟨by decide +kernel, by decide +kernel, head_of_line (Setup.pair.reachable_play (World.initial_users []) _)⟩

end MuduoChat
