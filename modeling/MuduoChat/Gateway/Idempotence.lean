import MuduoChat.Gateway.Runs

/-!
# Accepting at most once

Every answer `ok` of the gateways is a receipt for a message.  Under one key of one sender
there is one message; the first receipt is the only one that is not a duplicate, and all
receipts name the same message.
-/

namespace MuduoChat

open Std Coordinator ReliableMessaging InMemoryMessageStore Relation

/-! ### Receipts -/

/-- What an operation says that it has accepted. -/
structure Receipt where
  key : LexPair ℕ String
  duplicate : Bool
  messageId : ℕ
  conversationId : ℕ
  sequence : ℕ
  deriving DecidableEq

def Message.receipt (m : Message) (duplicate : Bool) : Receipt where
  key := m.key
  duplicate := duplicate
  messageId := m.id.value
  conversationId := m.conversationId.value
  sequence := m.sequence.value

/-- The receipt in the answer of an operation. -/
def receipt : Op → Except Fault Reply → Option Receipt
  | .accept sender cmd, .ok (.accepted o) =>
    if o.ok then
      some ⟨⟨sender.userId.value, cmd.clientMessageId.value⟩, o.duplicate, o.messageId.value,
        o.conversationId.value, o.sequence.value⟩
    else none
  | .chat userId _ _ _, .ok (.chat (some v)) =>
    if v.ok then
      some ⟨⟨toUInt64 userId, v.clientMessageId⟩, v.duplicate, v.messageId, v.conversationId,
        v.sequence⟩
    else none
  | _, _ => none

/-- The answer of an operation says that its key has been used for another payload. -/
def conflicts : Op → Except Fault Reply → Prop
  | .accept _ _, .ok (.accepted o) => o = conflictOutcome
  | .chat _ _ _ _, .ok (.chat (some v)) => v.errnoCode = errnoIdempotencyConflict
  | _, _ => False

/-- How an operation takes the messages of a store to those of another one, with the receipt
it gives, and where it may speak of a conflict. -/
inductive Receipted (s s' : InMemoryMessageStore) (conflict : Prop) : Option Receipt → Prop
  | silent (hsame : s.SameMessages s') (hno : ¬conflict) : Receipted s s' conflict none
  | conflict (hrows : OnlyRows s s') : Receipted s s' conflict none
  | again {m : Message} (hm : s.acceptedUnder m.key = some m) (hrows : OnlyRows s s') :
      Receipted s s' conflict (some (m.receipt true))
  | created {m : Message} {sender : UserId} {cmd : SendMessageCommand}
      (hfree : s.acceptedUnder m.key = none) (hnew : Created s s' sender cmd m)
      (hno : ¬conflict) : Receipted s s' conflict (some (m.receipt false))

lemma AcceptPost.receipted {s s' : InMemoryMessageStore} (hs : s.Messages)
    {sender : SessionIdentity} {cmd : SendMessageCommand} {o : AcceptOutcome} {conflict : Prop}
    (h : AcceptPost s s' sender cmd o) (hconflict : conflict → o.ok = false) :
    Receipted s s' conflict (receipt (.accept sender cmd) (.ok (.accepted o))) := by
  cases h with
  | @again m hfound hsame hrows =>
    have hkey : m.key = ⟨sender.userId.value, cmd.clientMessageId.value⟩ :=
      (hs.accepted_iff.1 hfound).1
    have hagain : Receipted s s' conflict (some (m.receipt true)) :=
      .again (by rw [hkey]; exact hfound) hrows
    rwa [Message.receipt, hkey] at hagain
  | conflict hfound hdiffer hrows => exact .conflict hrows
  | @created m hfree hnew =>
    have hkey : m.key = ⟨sender.userId.value, cmd.clientMessageId.value⟩ := by
      rw [Message.key, hnew.sender, hnew.command]
    have hcreated := Receipted.created (by rw [hkey]; exact hfree) hnew fun hc =>
      absurd (hconflict hc) (by simp [outcomeOf])
    rwa [Message.receipt, hkey] at hcreated

lemma Setup.post_receipted {ι : Type} {i : ι} {op : Op} {w w' : World ι}
    {reply : Except Fault Reply} (hw : w.Consistent) (h : Setup.post i op w reply w') :
    Receipted w.store w'.store (conflicts op reply) (receipt op reply) := by
  cases op with
  | accept sender cmd =>
    obtain ⟨o, rfl, hpost⟩ := h
    refine hpost.receipted hw.messages fun hc => ?_
    rw [show o = conflictOutcome from hc]
    rfl
  | chat userId generation kind js =>
    obtain ⟨v, rfl, hpost⟩ := h
    cases hpost with
    | dropped hparse hstore | rejected hparse herrno hstore
    | unresolved hparse herrno hstore hgroup | unusable hparse hkey hstore =>
      exact .conflict (hstore ▸ .refl _)
    | @handled parsed target clientMessageId o hparse hkey hresolved haccept =>
      refine haccept.receipted hw.messages fun hc => ?_
      have hcode : (if o.ok then 0 else acceptErrorToErrno o.error) = 103 := hc
      cases hok : o.ok with
      | false => rfl
      | true => simp [hok] at hcode
  | _ => exact .silent h.2 id

/-! ### Receipts along a history -/

lemma Receipted.acceptedUnder {s s' : InMemoryMessageStore} {conflict : Prop} {r : Option Receipt}
    (h : Receipted s s' conflict r) {key : LexPair ℕ String} {m : Message}
    (hm : s.acceptedUnder key = some m) : s'.acceptedUnder key = some m := by
  cases h with
  | silent hsame => rw [hsame.acceptedUnder, hm]
  | conflict hrows | again hm' hrows =>
    rw [hrows.rest]
    exact hm
  | @created m' _ _ hfree hnew =>
    rw [hnew.accepted, if_neg, hm]
    rintro rfl
    rw [hfree] at hm
    exact absurd hm (by simp)

lemma Receipted.of_receipt {s s' : InMemoryMessageStore} {conflict : Prop} {r : Receipt}
    (h : Receipted s s' conflict (some r)) :
    ∃ m, s'.acceptedUnder r.key = some m ∧ r = m.receipt r.duplicate := by
  generalize hx : some r = x at h
  cases h with
  | silent | conflict => cases hx
  | @again m hm hrows =>
    cases hx
    refine ⟨m, ?_, rfl⟩
    rw [hrows.rest]
    exact hm
  | @created m _ _ hfree hnew =>
    cases hx
    refine ⟨m, ?_, rfl⟩
    rw [hnew.accepted]
    exact if_pos rfl

lemma Receipted.exists_receipt {s s' : InMemoryMessageStore} {conflict : Prop}
    {r : Option Receipt} (h : Receipted s s' conflict r) {key : LexPair ℕ String} {m : Message}
    (hnone : s.acceptedUnder key = none) (hm : s'.acceptedUnder key = some m) :
    ∃ r', r = some r' ∧ r'.key = key := by
  cases h with
  | silent hsame =>
    rw [hsame.acceptedUnder, hnone] at hm
    exact absurd hm (by simp)
  | conflict hrows | again hm' hrows =>
    rw [hrows.rest] at hm
    exact absurd (hnone.symm.trans hm) (by simp)
  | @created m' _ _ hfree hnew =>
    rw [hnew.accepted] at hm
    split at hm
    · rename_i hkey
      exact ⟨_, rfl, hkey⟩
    · rw [hnone] at hm
      exact absurd hm (by simp)

variable {ι : Type}

abbrev Ended (ι : Type) := Serial.Finished Port ι (World ι) Op Reply

/-- The receipt that an operation has given. -/
def receiptOf (f : Ended ι) : Option Receipt := receipt f.op f.reply

/-- What an operation that has ended has done, in terms of receipts. -/
def Ended.Accounted (f : Ended ι) : Prop :=
  Receipted f.start.store f.final.store (conflicts f.op f.reply) (receiptOf f)

/-- After a history, the keys in use are those of the receipts, and each receipt names the
message under its key. -/
lemma receipts_of_history {w0 w : World ι} (hw0 : w0.Initial) {fs : List (Ended ι)}
    (h : Serial.History w0 fs w) (hfs : ∀ f ∈ fs, Ended.Accounted f) :
    (∀ key m, w.store.acceptedUnder key = some m →
        ∃ f ∈ fs, ∃ r, receiptOf f = some r ∧ r.key = key) ∧
      ∀ f ∈ fs, ∀ r, receiptOf f = some r →
        ∃ m, w.store.acceptedUnder r.key = some m ∧ r = m.receipt r.duplicate := by
  induction h with
  | nil =>
    refine ⟨fun key m hm => ?_, by simp⟩
    rw [hw0.store] at hm
    simp [InMemoryMessageStore.acceptedUnder] at hm
  | @cons fs f h ih =>
    obtain ⟨ihused, ihreceipts⟩ := ih fun g hg => hfs g (List.mem_cons_of_mem _ hg)
    have hf : Ended.Accounted f := hfs f (by simp)
    refine ⟨fun key m hm => ?_, fun g hg r hr => ?_⟩
    · cases hstart : f.start.store.acceptedUnder key with
      | none =>
        obtain ⟨r, hr, hkey⟩ := hf.exists_receipt hstart hm
        exact ⟨f, by simp, r, hr, hkey⟩
      | some m' =>
        obtain ⟨g, hg, r, hr, hkey⟩ := ihused key m' hstart
        exact ⟨g, List.mem_cons_of_mem _ hg, r, hr, hkey⟩
    · rcases List.mem_cons.1 hg with rfl | hg
      · rw [Ended.Accounted, hr] at hf
        exact hf.of_receipt
      · obtain ⟨m, hm, hrm⟩ := ihreceipts g hg r hr
        exact ⟨m, hf.acceptedUnder hm, hrm⟩

variable [DecidableEq ι] {S : Setup ι} {a : Setup.State ι}

lemma Setup.Reachable.accounted (h : S.Reachable a) {f : Ended ι} (hf : f ∈ a.finished) :
    Ended.Accounted f :=
  Setup.post_receipted (h.sound.finished f hf).1 (h.sound.finished f hf).2

lemma Setup.Reachable.receipts_before (h : S.Reachable a) {l₁ l₂ : List (Ended ι)} {g : Ended ι}
    (hsplit : a.finished = l₁ ++ g :: l₂) :
    (∀ key m, g.start.store.acceptedUnder key = some m →
        ∃ f ∈ l₂, ∃ r, receiptOf f = some r ∧ r.key = key) ∧
      ∀ f ∈ l₂, ∀ r, receiptOf f = some r →
        ∃ m, g.start.store.acceptedUnder r.key = some m ∧ r = m.receipt r.duplicate := by
  have hall : ∀ f ∈ l₂, Ended.Accounted f := by
    intro f hf
    refine h.accounted ?_
    rw [hsplit]
    simp [hf]
  obtain ⟨w, hw, hrun⟩ := h
  have hhist := Serial.history hrun
  rw [hsplit] at hhist
  exact receipts_of_history hw hhist.before hall

/-! ### The statement -/

/-- Accepting is idempotent and durable. -/
structure Idempotent (S : Setup ι) (a : Setup.State ι) : Prop where
  /-- Under one key there is one message, -/
  unique : ∀ j j' m m', a.world.store.findMessage j = some m →
    a.world.store.findMessage j' = some m' → m.key = m'.key → j = j'
  /-- and it stays. -/
  lasting : ∀ b, ReflTransGen S.Step a b → ∀ j m, a.world.store.findMessage j = some m →
    b.world.store.findMessage j = some m
  /-- A receipt is a duplicate exactly if there is an earlier one under its key, and both
  name the same message. -/
  receipts : ∀ l₁ g l₂ r, a.finished = l₁ ++ g :: l₂ → receiptOf g = some r →
    (r.duplicate = true ↔ ∃ f ∈ l₂, ∃ r', receiptOf f = some r' ∧ r'.key = r.key) ∧
    ∀ f ∈ l₂, ∀ r', receiptOf f = some r' → r'.key = r.key →
      r'.messageId = r.messageId ∧ r'.conversationId = r.conversationId ∧
        r'.sequence = r.sequence
  /-- A used key with another payload is a conflict. -/
  conflict : ∀ g ∈ a.finished, ∀ sender cmd m, g.op = .accept sender cmd →
    g.start.store.findAccepted cmd.clientMessageId sender.userId = some m →
    samePayload m.command cmd = false → g.reply = .ok (.accepted conflictOutcome)
  /-- Neither a duplicate nor a conflict adds anything to the store. -/
  frugal : ∀ g ∈ a.finished,
    (∃ r, receiptOf g = some r ∧ r.duplicate = true) ∨ conflicts g.op g.reply →
    OnlyRows g.start.store g.final.store
  /-- The sequences of a conversation are the numbers from one to the last one, -/
  sequences : ∀ c q, (∃ j m, a.world.store.findMessage j = some m ∧ m.conversationId = c ∧
    m.sequence.value = q) ↔ 1 ≤ q ∧ q ≤ a.world.store.lastSequence c
  /-- in the order of the identifiers, -/
  order : ∀ j j' m m', a.world.store.findMessage j = some m →
    a.world.store.findMessage j' = some m' → m.conversationId = m'.conversationId →
    (m.sequence.value < m'.sequence.value ↔ j.value < j'.value)
  /-- which is that of acceptance. -/
  acceptance : ∀ l₁ g l₂ r, a.finished = l₁ ++ g :: l₂ → receiptOf g = some r →
    r.duplicate = false → ∀ f ∈ l₂, ∀ r', receiptOf f = some r' → r'.messageId < r.messageId
  /-- Each message has one outbox event. -/
  outbox : ∀ j m, a.world.store.findMessage j = some m →
    ∃! n, ∃ e, a.world.store.outboxEvent n = some e ∧ e.aggregateMessageId = j
  /-- When a new message has been accepted, its rows are those of its recipients. -/
  rows : ∀ g ∈ a.finished, ∀ r, receiptOf g = some r → r.duplicate = false →
    ∃ m, g.final.store.findMessage ⟨r.messageId⟩ = some m ∧ m.key = r.key ∧
      ∀ k : DeliveryKey, k.messageId = r.messageId →
        ((g.final.store.row k).isSome ↔ ∃ u ∈ recipientsFor m.command, u.value = k.recipient)

lemma Receipted.created_of_receipt {s s' : InMemoryMessageStore} {conflict : Prop} {r : Receipt}
    (h : Receipted s s' conflict (some r)) :
    (r.duplicate = true ∧ OnlyRows s s' ∧ ∃ m, s.acceptedUnder r.key = some m) ∨
      (r.duplicate = false ∧ s.acceptedUnder r.key = none ∧
        ∃ m sender cmd, r = m.receipt false ∧ Created s s' sender cmd m) := by
  generalize hx : some r = x at h
  cases h with
  | silent | conflict => cases hx
  | @again m hm hrows =>
    cases hx
    exact .inl ⟨rfl, hrows, m, hm⟩
  | @created m sender cmd hfree hnew =>
    cases hx
    exact .inr ⟨rfl, hfree, m, sender, cmd, rfl, hnew⟩

section fields

variable {l₁ l₂ : List (Ended ι)} {g : Ended ι} {r : Receipt}

lemma Setup.Reachable.receipts (h : S.Reachable a) (hsplit : a.finished = l₁ ++ g :: l₂)
    (hr : receiptOf g = some r) :
    (r.duplicate = true ↔ ∃ f ∈ l₂, ∃ r', receiptOf f = some r' ∧ r'.key = r.key) ∧
      ∀ f ∈ l₂, ∀ r', receiptOf f = some r' → r'.key = r.key →
        r'.messageId = r.messageId ∧ r'.conversationId = r.conversationId ∧
          r'.sequence = r.sequence := by
  have hg : Ended.Accounted g := h.accounted (by simp [hsplit])
  rw [Ended.Accounted, hr] at hg
  obtain ⟨hused, hbefore⟩ := h.receipts_before hsplit
  refine ⟨?_, fun f hf r' hr' hkey => ?_⟩
  · rcases hg.created_of_receipt with ⟨hdup, -, m, hm⟩ | ⟨hdup, hfree, -⟩
    · simp only [hdup, true_iff]
      exact hused r.key m hm
    · simp only [hdup, Bool.false_eq_true, false_iff]
      rintro ⟨f, hf, r', hr', hkey⟩
      obtain ⟨m, hm, -⟩ := hbefore f hf r' hr'
      rw [hkey, hfree] at hm
      exact absurd hm (by simp)
  · -- both receipts are made from the message that stands under the key
    obtain ⟨m, hm, hrm⟩ := hg.of_receipt
    obtain ⟨m', hm', hrm'⟩ := hbefore f hf r' hr'
    rw [hkey] at hm'
    obtain rfl : m = m' := Option.some.inj (hm.symm.trans (hg.acceptedUnder hm'))
    rw [hrm, hrm']
    exact ⟨rfl, rfl, rfl⟩

lemma Setup.Reachable.acceptance (h : S.Reachable a) (hsplit : a.finished = l₁ ++ g :: l₂)
    (hr : receiptOf g = some r) (hnew : r.duplicate = false) {f : Ended ι} (hf : f ∈ l₂)
    {r' : Receipt} (hr' : receiptOf f = some r') : r'.messageId < r.messageId := by
  have hmem : g ∈ a.finished := by simp [hsplit]
  have hg : Ended.Accounted g := h.accounted hmem
  rw [Ended.Accounted, hr] at hg
  rcases hg.created_of_receipt with ⟨hdup, -⟩ | ⟨-, -, m, sender, cmd, rfl, hcreated⟩
  · exact absurd (hdup.symm.trans hnew) (by simp)
  · obtain ⟨m', hm', hrm'⟩ := (h.receipts_before hsplit).2 f hf r' hr'
    have hmsgs := (h.sound.finished g hmem).1.messages
    rw [hrm']
    calc m'.id.value < g.start.store.nextMessageId := hmsgs.id_lt (hmsgs.accepted_iff.1 hm').2
      _ = m.id.value := hcreated.id.symm

lemma Setup.Reachable.rows_of_receipt (h : S.Reachable a) (hg : g ∈ a.finished)
    (hr : receiptOf g = some r) (hnew : r.duplicate = false) :
    ∃ m, g.final.store.findMessage ⟨r.messageId⟩ = some m ∧ m.key = r.key ∧
      ∀ k : DeliveryKey, k.messageId = r.messageId →
        ((g.final.store.row k).isSome ↔
          ∃ u ∈ recipientsFor m.command, u.value = k.recipient) := by
  have hacc : Ended.Accounted g := h.accounted hg
  rw [Ended.Accounted, hr] at hacc
  rcases hacc.created_of_receipt with ⟨hdup, -⟩ | ⟨-, -, m, sender, cmd, rfl, hcreated⟩
  · exact absurd (hdup.symm.trans hnew) (by simp)
  · refine ⟨m, ?_, rfl, fun k hk => ?_⟩
    · rw [hcreated.messages]
      exact if_pos rfl
    · rw [hcreated.command]
      exact hcreated.rows k hk

lemma Setup.Reachable.frugal (h : S.Reachable a) (hg : g ∈ a.finished)
    (hadds : (∃ r, receiptOf g = some r ∧ r.duplicate = true) ∨ conflicts g.op g.reply) :
    OnlyRows g.start.store g.final.store := by
  have hacc : Receipted _ _ _ (receiptOf g) := h.accounted hg
  generalize hx : receiptOf g = x at hacc hadds
  cases hacc with
  | silent hsame hno => exact absurd hadds (by simp [hno])
  | conflict hrows | again hm hrows => exact hrows
  | created hfree hnew hno => exact absurd hadds (by simp [hno, Message.receipt])

lemma Setup.Reachable.conflict (h : S.Reachable a) (hg : g ∈ a.finished) {sender : SessionIdentity}
    {cmd : SendMessageCommand} {m : Message} (hop : g.op = .accept sender cmd)
    (hm : g.start.store.findAccepted cmd.clientMessageId sender.userId = some m)
    (hdiffer : samePayload m.command cmd = false) :
    g.reply = .ok (.accepted conflictOutcome) := by
  have hpost := (h.sound.finished g hg).2
  rw [hop] at hpost
  obtain ⟨o, hreply, haccept⟩ := hpost
  rw [hreply]
  cases haccept with
  | again hfound hsame =>
    obtain rfl := Option.some.inj (hm.symm.trans hfound)
    exact absurd (hsame.symm.trans hdiffer) (by simp)
  | conflict => rfl
  | created hfree => exact absurd (hm.symm.trans hfree) (by simp)

end fields

/-- **Accepting is idempotent and durable**, in every state of every run. -/
theorem accept_idempotent (h : S.Reachable a) : Idempotent S a where
  unique j j' m m' hm hm' hkey := by
    have hid := h.messages.id_eq hm
    have hid' := h.messages.id_eq hm'
    have hunder : a.world.store.acceptedUnder m'.key = some m :=
      h.messages.accepted_iff.2 ⟨hkey, hid.symm ▸ hm⟩
    have hunder' : a.world.store.acceptedUnder m'.key = some m' :=
      h.messages.accepted_iff.2 ⟨rfl, hid'.symm ▸ hm'⟩
    rw [← hid, ← hid', Option.some.inj (hunder.symm.trans hunder')]
  lasting b hrun j m hm := h.findMessage_steps hrun hm
  receipts l₁ g l₂ r hsplit hr := h.receipts hsplit hr
  conflict g hg sender cmd m hop hm hdiffer := h.conflict hg hop hm hdiffer
  frugal g hg hadds := h.frugal hg hadds
  sequences c q := by
    constructor
    · rintro ⟨j, m, hm, rfl, rfl⟩
      exact ⟨h.messages.sequence_pos hm, h.messages.sequence_le hm⟩
    · rintro ⟨hpos, hle⟩
      exact h.messages.sequence_full c q hpos hle
  order j j' m m' hm hm' hc := h.messages.sequence_lt_iff hm hm' hc
  acceptance l₁ g l₂ r hsplit hr hnew f hf r' hr' := h.acceptance hsplit hr hnew hf hr'
  outbox j m hm := by
    obtain ⟨e, he⟩ := Option.isSome_iff_exists.1 (h.messages.outbox_of_message hm)
    refine ⟨j.value, ⟨e, he, (h.messages.outbox_event he).2.1⟩, ?_⟩
    rintro n ⟨e', he', rfl⟩
    rw [(h.messages.outbox_event he').2.1]
  rows g hg r hr hnew := h.rows_of_receipt hg hr hnew

/-- A message is accepted, the command is repeated, and its key is then used for another
recipient. -/
def acceptedTwice : Setup.State Bool :=
  Setup.pair.system.play (.initial {})
    [⟨true, .accept ⟨⟨1⟩, 1⟩ (directTo 2 ⟨"a", valid_a⟩), { now := 1000 }, 100⟩,
      ⟨false, .accept ⟨⟨1⟩, 1⟩ (directTo 2 ⟨"a", valid_a⟩), { now := 1001 }, 100⟩,
      ⟨true, .accept ⟨⟨1⟩, 2⟩ (directTo 3 ⟨"a", valid_a⟩), { now := 1002 }, 100⟩]

theorem accept_idempotent_acceptedTwice :
    acceptedTwice.finished.map receiptOf =
        [none, some ⟨⟨1, "a"⟩, true, 1, 1, 1⟩, some ⟨⟨1, "a"⟩, false, 1, 1, 1⟩] ∧
      Idempotent Setup.pair acceptedTwice :=
  ⟨by decide +kernel,
    accept_idempotent (Setup.pair.reachable_play (World.initial_users []) _)⟩

end MuduoChat
