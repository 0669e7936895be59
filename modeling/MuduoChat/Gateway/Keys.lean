import MuduoChat.Gateway.Idempotence
import MuduoChat.Gateway.Terminal

/-!
# Explicit and generated keys

A chat command with a client message id is explicit: its deliveries are to be acknowledged by
their recipients.  One without is a legacy command: it gets a generated key and its deliveries
are acknowledged as soon as they are sent.  The coordinator tells the two apart by the text of
the key alone, and generated keys are only counted within one process.
-/

namespace MuduoChat

open Std Coordinator ReliableMessaging InMemoryMessageStore Relation

/-! ### Parsing -/

variable {kind : CommandKind} {parsed : ParsedChatMessage}

lemma parseContent_key {js : Json} {out : ParsedChatMessage} {errno : ℕ}
    (h : parseContent kind js out = .ok (errno, parsed)) :
    parsed.legacy = out.legacy ∧ parsed.clientMessageId = out.clientMessageId := by
  simp only [parseContent, bind, Except.bind, pure, Except.pure] at h
  split at h
  · cases h
  split at h
  · cases h
  split at h
  · cases h
    exact ⟨rfl, rfl⟩
  cases kind <;>
  · dsimp only at h
    split at h
    · cases h
    split at h
    · cases h
    cases h
    exact ⟨rfl, rfl⟩

lemma parseChatMessage_explicit {js : Json} {text : String}
    {errno : ℕ}
    (hfield : js.field? "client_message_id" = some (.str text))
    (h : parseChatMessage kind js = .ok (errno, parsed)) :
    parsed.legacy = false ∧ parsed.clientMessageId = text := by
  rw [parseChatMessage, hfield] at h
  simp only [Json.getString, bind, Except.bind] at h
  split at h
  · exact parseContent_key h
  · cases h
    exact ⟨rfl, rfl⟩

section

variable {ι : Type} {i : ι} {userId generation : ℤ} {kind : CommandKind} {js : Json}
  {w w₁ : World ι} {v : AcceptResultView}

lemma ChatPost.key_of_ok (h : ChatPost i userId generation kind js w w₁ (.ok (some v)))
    (hok : v.ok = true) : ∃ parsed, parseChatMessage kind js = .ok (0, parsed) ∧
      v.clientMessageId = keyText (w.process i) userId parsed := by
  cases h with
  | rejected | unresolved => cases hok
  | handled hparse hkey => exact ⟨_, hparse, hkey⟩

end

variable {ι : Type} [DecidableEq ι] {S : Setup ι} {a b : Setup.State ι}

lemma Setup.Reachable.acceptedUnder_step (h : S.Reachable a) (hstep : S.Step a b)
    {key : LexPair ℕ String} {m : Message} (hm : a.world.store.acceptedUnder key = some m) :
    b.world.store.acceptedUnder key = some m := by
  obtain ⟨hkey, hfound⟩ := h.messages.accepted_iff.1 hm
  exact (h.step hstep).messages.accepted_iff.2 ⟨hkey, h.findMessage_step hstep hfound⟩

lemma Setup.Reachable.acceptedUnder_of_finished (h : S.Reachable a) {f : Ended ι}
    (hf : f ∈ a.finished) {key : LexPair ℕ String} {m : Message}
    (hm : f.final.store.acceptedUnder key = some m) : a.world.store.acceptedUnder key = some m := by
  obtain ⟨w, hw, hrun⟩ := h
  induction hrun with
  | refl => cases hf
  | @tail x y hx hstep ih =>
    have hreach : S.Reachable x := ⟨w, hw, hx⟩
    by_cases hold : f ∈ x.finished
    · exact hreach.acceptedUnder_step hstep (ih hold)
    -- the operation has just ended
    rcases Serial.step_cases hstep with ⟨i, op, hr, rfl⟩ | ⟨i, op, s, v, hr, rfl⟩ |
      ⟨i, op, s, e, hr, rfl⟩ | ⟨i, op, s, c, k, ω, r, w', hr, hw', rfl⟩
    · exact absurd hf hold
    · obtain rfl := (List.mem_cons.1 hf).resolve_right hold
      exact hm
    · obtain rfl := (List.mem_cons.1 hf).resolve_right hold
      exact hm
    · exact absurd hf hold

lemma Setup.Reachable.explicit_ack (h : S.Reachable a) (hstep : S.Step a b) {m : Message}
    (hm : ∀ m', a.world.store.findMessage m.id = some m' → m' = m)
    (hexplicit : isLegacyClientMessageId m.command.clientMessageId.value = false)
    {k : DeliveryKey} (hk : k.messageId = m.id.value) (hne : stateOf a k ≠ some .acknowledged)
    (hack : stateOf b k = some .acknowledged) :
    ∃ r acker, a.running = some r ∧ r.op = .acknowledge acker m.id ∧
      acker.userId.value = k.recipient := by
  obtain ⟨d, hd, hstate⟩ := Option.map_eq_some_iff.1 hack
  rcases h.row_cases hstep k with hsame | ⟨r, hr, hrow⟩
  · rw [stateOf, ← hsame] at hne
    exact absurd hack hne
  cases hcur : a.world.store.row k with
  | none =>
    -- a new row is pending
    rw [hcur, hd] at hrow
    cases hrow with
    | create => cases hstate
  | some cur =>
    have hkey := h.rows.key_eq hcur
    have hid : cur.messageId = m.id := Id.ext (by rw [← hk, ← hkey]; rfl)
    rw [hcur, hd] at hrow
    have hcurstate : cur.state ≠ .acknowledged := fun hc => hne (by simp [stateOf, hcur, hc])
    rcases (hrow.acks hcurstate hstate).2 with
      ⟨acker, messageId, hop, hwrite⟩ | ⟨session, message, hclaim, hlegacy⟩
    · refine ⟨r, acker, hr, ?_, ?_⟩
      · rw [hop, ← hwrite.message, hid]
      · rw [← hwrite.mine, ← hkey]
        rfl
    · obtain rfl := hm message (hid ▸ hclaim.found)
      exact absurd (hexplicit.symm.trans hlegacy) (by simp)

/-- An acknowledged row of a message with an explicit key has become so in an `acknowledge` of
its recipient. -/
lemma Setup.Reachable.exists_explicit_ack (h : S.Reachable b) {m : Message}
    (hm : b.world.store.findMessage m.id = some m)
    (hexplicit : isLegacyClientMessageId m.command.clientMessageId.value = false)
    {k : DeliveryKey} (hk : k.messageId = m.id.value) (hack : stateOf b k = some .acknowledged) :
    ∃ x y r acker, S.Reachable x ∧ S.Step x y ∧ ReflTransGen S.Step y b ∧
      stateOf x k ≠ some .acknowledged ∧ stateOf y k = some .acknowledged ∧
      x.running = some r ∧ r.op = .acknowledge acker m.id ∧ acker.userId.value = k.recipient := by
  obtain ⟨w, hw, hrun⟩ := h
  have hstart : stateOf (Serial.Config.initial w : Setup.State ι) k ≠ some .acknowledged := by
    simp [stateOf, Serial.Config.initial, hw.store, InMemoryMessageStore.row]
  obtain ⟨x, y, hx, hxy, hyb, hne, hy⟩ := exists_step_of_reaches
    (P := fun x => stateOf x k = some .acknowledged) hrun hstart hack
  have hreach : S.Reachable x := ⟨w, hw, hx⟩
  have hsame (m' : Message) (hm' : x.world.store.findMessage m.id = some m') : m' = m :=
    Option.some.inj ((hreach.findMessage_steps (.head hxy hyb) hm').symm.trans hm)
  obtain ⟨r, acker, hr, hop, hrec⟩ := hreach.explicit_ack hxy hsame hexplicit hk hne hy
  exact ⟨x, y, r, acker, hreach, hxy, hyb, hne, hy, hr, hop, hrec⟩

/-- **Explicit clients keep explicit acknowledgement, if their keys do not look generated.**
A chat command that carries a client message id which does not begin with `legacy:` and that
is answered `ok` is stored as a message under that id; and in every state of every run, a row
of this message that is acknowledged has become so in an `acknowledge` of its recipient,
whatever the sink has answered. -/
theorem explicit_acknowledgement (h : S.Reachable a) {f : Ended ι} (hf : f ∈ a.finished)
    {userId generation : ℤ} {kind : CommandKind} {js : Json} {text : String}
    {v : AcceptResultView} (hop : f.op = .chat userId generation kind js)
    (hfield : js.field? "client_message_id" = some (.str text))
    (hexplicit : isLegacyClientMessageId text = false)
    (hreply : f.reply = .ok (.chat (some v))) (hok : v.ok = true) :
    ∃ m, a.world.store.findMessage ⟨v.messageId⟩ = some m ∧
      m.senderId = ⟨toUInt64 userId⟩ ∧ m.command.clientMessageId.value = text ∧
      ∀ b k, S.Reachable b → b.world.store.findMessage m.id = some m →
        k.messageId = m.id.value → stateOf b k = some .acknowledged →
        ∃ x y r acker, S.Reachable x ∧ S.Step x y ∧ ReflTransGen S.Step y b ∧
          stateOf x k ≠ some .acknowledged ∧ stateOf y k = some .acknowledged ∧
          x.running = some r ∧ r.op = .acknowledge acker m.id ∧
          acker.userId.value = k.recipient := by
  have hpost := (h.sound.finished f hf).2
  have hacc : Ended.Accounted f := h.accounted hf
  rw [hop, hreply] at hpost
  obtain ⟨_, hview, hchat⟩ := hpost
  obtain rfl := map_chat_eq_ok_iff.1 hview.symm
  obtain ⟨parsed, hparse, hkey⟩ := hchat.key_of_ok hok
  obtain ⟨hlegacy, htext⟩ := parseChatMessage_explicit hfield hparse
  rw [keyText, hlegacy, htext] at hkey
  have hreceipt : receiptOf f = some ⟨⟨toUInt64 userId, text⟩, v.duplicate, v.messageId,
      v.conversationId, v.sequence⟩ := by
    rw [receiptOf, hop, hreply, ← show v.clientMessageId = text from hkey]
    simp [receipt, hok]
  rw [Ended.Accounted, hreceipt] at hacc
  obtain ⟨m, hm, hrm⟩ := hacc.of_receipt
  have hunder := h.acceptedUnder_of_finished hf hm
  obtain ⟨hmkey, hfound⟩ := h.messages.accepted_iff.1 hunder
  have hid : v.messageId = m.id.value := congrArg Receipt.messageId hrm
  have hmtext : m.command.clientMessageId.value = text := congrArg LexPair.second hmkey
  refine ⟨m, by rw [hid]; exact hfound, Id.ext (congrArg LexPair.first hmkey), hmtext, ?_⟩
  intro b k hb hbm hk hack
  exact hb.exists_explicit_ack hbm (by rw [hmtext, hexplicit]) hk hack

/-- The JSON of a direct message, for concrete runs. -/
def directJson (clientMessageId : Option String) (content : String) : Json :=
  .obj ((clientMessageId.map fun c => ("client_message_id", .str c)).toList ++
    [("content", .str content), ("toid", .unsigned 2)])

/-- What the answer of a chat command shows. -/
def viewIn : Except Fault Reply → Option AcceptResultView
  | .ok (.chat view) => view
  | _ => none

lemma eq_ok_of_viewIn {reply : Except Fault Reply} {v : AcceptResultView}
    (h : viewIn reply = some v) : reply = .ok (.chat (some v)) := by
  unfold viewIn at h
  split at h
  · rw [h]
  · cases h

namespace ExplicitKey

/-- A user is online, and another one sends it a message with the given client message id;
the sink accepts.  The number is that of the steps of the last operation. -/
def sending (clientMessageId : String) (steps : ℕ) : Setup.State Bool :=
  Setup.pair.system.play
    (Setup.pair.system.play (.initial { users := [1, 2] })
      [⟨true, .sessionAvailable ⟨⟨2⟩, 1⟩, { now := 1000 }, 100⟩])
    [⟨true, .chat 1 1 .direct (directJson (some clientMessageId) "hi"),
      { now := 1000, disposition := .accepted }, steps⟩]

/-- The coordinator acknowledges the row in the next step. -/
def acknowledging : Setup.State Bool :=
  (Setup.pair.system.next (sending "legacy:x" 18) (.advance {})).get (by decide +kernel)

end ExplicitKey

open ExplicitKey in
theorem explicit_acknowledgement_sending :
    stateOf (sending "x" 100) ⟨1, 2⟩ = some .inFlight ∧
      ∃ m, (sending "x" 100).world.store.findMessage ⟨1⟩ = some m ∧ m.senderId = ⟨1⟩ ∧
        m.command.clientMessageId.value = "x" := by
  obtain ⟨reply, hfinished⟩ : ∃ reply, (sending "x" 100).finished = ⟨true, _, _, reply, _⟩ :: _ :=
    Serial.play_finished (Option.isNone_iff_eq_none.1 (by decide +kernel))
      (Option.isNone_iff_eq_none.1 (by decide +kernel))
  have hview : (sending "x" 100).finished.head?.bind (viewIn ·.reply) =
      some ⟨true, false, 0, "x", 1, 1, 1⟩ := by decide +kernel
  rw [hfinished] at hview
  obtain ⟨m, hm, hsender, htext, -⟩ := explicit_acknowledgement
    (Setup.pair.reachable_play₂ (World.initial_users [1, 2]) _ _)
    (hfinished ▸ List.mem_cons_self) rfl rfl (by decide) (eq_ok_of_viewIn hview) rfl
  exact ⟨by decide +kernel, m, hm, hsender, htext⟩

open ExplicitKey in
theorem sink_acknowledges_explicit_key :
    (∃ parsed, parseChatMessage .direct (directJson (some "legacy:x") "hi") = .ok (0, parsed) ∧
        parsed.legacy = false) ∧
      Setup.pair.Reachable (sending "legacy:x" 18) ∧
      (∃ r, (sending "legacy:x" 18).running = some r ∧
        r.op = .chat 1 1 .direct (directJson (some "legacy:x") "hi")) ∧
      Setup.pair.Step (sending "legacy:x" 18) ExplicitKey.acknowledging ∧
      stateOf (sending "legacy:x" 18) ⟨1, 2⟩ = some .pending ∧
      stateOf ExplicitKey.acknowledging ⟨1, 2⟩ = some .acknowledged := by
  obtain ⟨r, hr⟩ : ∃ r, (sending "legacy:x" 18).running = some r :=
    Option.isSome_iff_exists.1 (by decide +kernel)
  refine ⟨⟨_, rfl, rfl⟩, Setup.pair.reachable_play₂ (World.initial_users [1, 2]) _ _,
    ⟨r, hr, (Serial.play_running (Option.isNone_iff_eq_none.1 (by decide +kernel)) hr).2⟩,
    ⟨_, (Option.some_get _).symm⟩, by decide +kernel, by decide +kernel⟩

/-! ### Generated keys -/

namespace GeneratedKey

/-- One process has accepted a legacy message of a user. -/
def first : Setup.State Bool :=
  Setup.pair.system.play (.initial { users := [1, 2] })
    [⟨true, .chat 1 1 .direct (directJson none "one"), { now := 1000 }, 100⟩]

/-- Another process, or the same one after a restart, handles another legacy message of the
user. -/
def second (content : String) : Setup.State Bool :=
  Setup.pair.system.play first
    [⟨false, .chat 1 1 .direct (directJson none content), { now := 2000 }, 100⟩]

end GeneratedKey

end MuduoChat
