import MuduoChat.Gateway.Runs

/-!
# The order of delivery

What a sink has been called with in a whole run, with any answers of the sink and any crossing of
acknowledgements, expiry and new sessions.  A row that has been passed over never comes to be open
again, so attempts for one recipient and conversation never go back.
-/

namespace MuduoChat

open Std Coordinator InMemoryMessageStore Relation

structure Carries (m : Message) (x : DeliveryAttempt) : Prop where
  recipient : x.recipient ∈ recipientsFor m.command
  conversationId : x.conversationId = m.conversationId
  sequence : x.sequence = m.sequence
  senderId : x.senderId = m.senderId
  kind : x.kind = m.command.kind
  directRecipient : x.directRecipient = m.command.directRecipient
  groupId : x.groupId = m.command.groupId
  content : x.content = m.command.content

variable {ι : Type}

/-- The attempts that have been made, the latest first, and the rows that they leave. -/
structure InOrder (w : World ι) : Prop where
  /-- Every attempt carries a message that has been accepted. -/
  carries : ∀ x ∈ w.sent, ∃ m, w.store.findMessage x.1.messageId = some m ∧ Carries m x.1
  /-- Rows before one for which there has been an attempt are terminal. -/
  passed : ∀ x ∈ w.sent, ∀ k d, w.store.row k = some d → d.recipient = x.1.recipient →
    d.conversationId = x.1.conversationId → w.store.sequenceOf d < x.1.sequence.value →
    d.state.terminal = true
  order : w.sent.Pairwise fun later earlier => earlier.1.recipient = later.1.recipient →
    earlier.1.conversationId = later.1.conversationId →
    earlier.1.sequence.value ≤ later.1.sequence.value

variable {w w' : World ι}

/-- An attempt for the head of a line. -/
lemma InOrder.deliver (h : InOrder w) (hrows : w.store.Rows) {attempt : DeliveryAttempt}
    (hattempt : Deliverable w attempt) (disposition : DeliverDisposition) :
    InOrder { w with sent := (attempt, disposition) :: w.sent } := by
  obtain ⟨cur, m, hcur, hm, hopen, hhead, rfl⟩ := hattempt
  obtain ⟨m', hm', hconv, hrecipient⟩ := hrows.message hcur
  obtain rfl : m = m' := Option.some.inj (hm.symm.trans hm')
  have hfill := w.store.fillSequence_eq cur
  have hsequence : (w.store.fillSequence cur).sequence = m.sequence :=
    Id.ext (sequenceOf_eq hm)
  constructor
  · refine List.forall_mem_cons.2 ⟨⟨m, ?_, ?_⟩, h.carries⟩
    · rw [attemptFor, hfill]
      exact hm
    · constructor <;> simp only [attemptFor, hsequence] <;> rw [hfill]
      · exact hrecipient
      · exact hconv.symm
  · refine List.forall_mem_cons.2 ⟨fun k d hd hrec hline hlt => ?_, h.passed⟩
    rw [attemptFor, hfill] at hrec hline
    exact hhead k d hd hrec hline hlt
  · refine List.pairwise_cons.2 ⟨fun x hx hrec hline => ?_, h.order⟩
    by_contra hlt
    rw [attemptFor, hfill] at hrec hline
    have hterm := h.passed x hx _ cur hcur hrec.symm hline.symm (Nat.not_le.1 hlt)
    rw [hopen] at hterm
    cases hterm

/-- A change of the store that passes messages on and touches rows as it may. -/
lemma InOrder.touch (h : InOrder w) (hmsgs : w.store.Messages) (hrows : w.store.Rows)
    (hsent : w'.sent = w.sent)
    (hkept : ∀ j m, w.store.findMessage j = some m → w'.store.findMessage j = some m)
    (htouch : ∀ k, w.store.Touch k (w.store.row k) (w'.store.row k)) : InOrder w' := by
  refine ⟨?_, ?_, hsent ▸ h.order⟩ <;> rw [hsent]
  · intro x hx
    obtain ⟨m, hm, hcarries⟩ := h.carries x hx
    exact ⟨m, hkept _ _ hm, hcarries⟩
  · intro x hx k d hd hrec hline hlt
    rcases Touch.origin hrows (hd ▸ htouch k) with
      ⟨cur, hcur, hmsg, hconv, hrecipient, hopen, -⟩ | ⟨m, -, hm, hconv, -, hlast, -⟩
    · obtain ⟨m, hm, -⟩ := hrows.message hcur
      rw [sequenceOf_eq (hkept _ _ (hmsg ▸ hm)), ← sequenceOf_eq hm] at hlt
      have hterm := h.passed x hx k cur hcur (hrecipient ▸ hrec) (hconv ▸ hline) hlt
      by_contra hno
      rw [hopen (Bool.not_eq_true _ ▸ hno)] at hterm
      cases hterm
    · -- a new row stands at the end of its conversation
      obtain ⟨m', hm', hcarries⟩ := h.carries x hx
      have hle := hmsgs.sequence_le hm'
      rw [sequenceOf_eq (hkept _ _ hm), hlast, hconv, hline, hcarries.conversationId,
        hcarries.sequence] at hlt
      omega

variable [DecidableEq ι] {S : Setup ι} {a b : Setup.State ι}

lemma World.sent_of_handle {i : ι} {c : Call} {ω : Env} {v : Except Fault c.Value}
    (h : World.handle i c ω w = some (v, w')) :
    w'.sent = w.sent ∨
      ∃ attempt, c = .deliver attempt ∧
        w' = { w with sent := (attempt, ω.disposition) :: w.sent } := by
  cases c with
  | deliver attempt =>
    cases h
    exact .inr ⟨attempt, rfl, rfl⟩
  | groupMembers groupId =>
    unfold World.handle at h
    dsimp only at h
    split at h <;> obtain ⟨-, rfl⟩ := answer_inj h <;> exact .inl rfl
  | _ =>
    cases h
    exact .inl rfl

/-- **The step lemma.** -/
lemma InOrder.step (h : S.Reachable a) (hstep : S.Step a b) (horder : InOrder a.world) :
    InOrder b.world := by
  rcases h.sound.step_cases hstep with heq | ⟨r, c, _, ω, v, -, -, hallow, hw⟩
  · rw [heq]
    exact horder
  rcases World.sent_of_handle hw with hsent | ⟨attempt, rfl, hworld⟩
  · exact horder.touch h.messages h.rows hsent (fun _ _ => h.findMessage_step hstep)
      fun k => (hallow.rowStep hw k).touch
  · rw [hworld]
    exact horder.deliver h.rows hallow ω.disposition

/-- **Messages are delivered in order.**  In every state of every run, every attempt has been for a
recipient of an accepted message and carried the message.  For one recipient and conversation the
sequences of the attempts never decrease, and no row before one of them is open. -/
theorem delivered_in_order (h : S.Reachable a) : InOrder a.world := by
  obtain ⟨w, hw, hrun⟩ := h
  induction hrun with
  | refl => constructor <;> simp [Serial.Config.initial, hw.sent]
  | tail hrun hstep ih => exact ih.step ⟨w, hw, hrun⟩ hstep

/-- Two messages, of which the first has been acknowledged before the second is delivered. -/
def bothSent : Setup.State Bool :=
  Setup.pair.system.play (.initial {})
    [⟨true, .sessionAvailable ⟨⟨2⟩, 1⟩, { now := 1000 }, 100⟩,
      ⟨true, .accept ⟨⟨1⟩, 1⟩ (directTo 2 ⟨"a", valid_a⟩),
        { now := 1000, disposition := .accepted }, 100⟩,
      ⟨true, .accept ⟨⟨1⟩, 1⟩ (directTo 2 ⟨"b", valid_b⟩), { now := 1001 }, 100⟩,
      ⟨true, .acknowledge ⟨⟨2⟩, 1⟩ ⟨1⟩, { now := 1002, disposition := .accepted }, 100⟩]

theorem delivered_in_order_bothSent :
    bothSent.world.sent.map (fun x => x.1.sequence.value) = [2, 1] ∧ InOrder bothSent.world :=
  ⟨by decide +kernel, delivered_in_order (Setup.pair.reachable_play (World.initial_users []) _)⟩

end MuduoChat
