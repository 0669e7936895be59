import MuduoChat.Gateway.Keys

/-!
# Retries of group commands

A group command carries the members of the group, as the query of the group returned them when
the command was built.  A retry is compared with the stored command element by element, so it
is recognised only if the query returns the same list again.
-/

namespace MuduoChat

open Std Coordinator ReliableMessaging InMemoryMessageStore Relation

/-- The recipients that a query of a group gives. -/
def memberIds (rows : List ℤ) : List UserId := rows.map fun u => ⟨toUInt64 u⟩

/-- Two commands of one group message under one key have the same payload exactly if their
members are the same list. -/
lemma samePayload_group_iff {cmd : SendMessageCommand} {parsed : ParsedChatMessage}
    {rows rows' : List ℤ} {clientMessageId clientMessageId' : ClientMessageId}
    (hvalue : clientMessageId'.value = clientMessageId.value)
    (h : samePayload cmd { groupCommand parsed rows with clientMessageId } = true) :
    samePayload cmd
        { groupCommand parsed rows' with clientMessageId := clientMessageId' } = true ↔
      memberIds rows' = cmd.members := by
  obtain rfl : clientMessageId' = clientMessageId := ClientMessageId.ext hvalue
  unfold samePayload at h ⊢
  split at h
  · cases h
  · rename_i heq
    rw [if_neg (by simpa [groupCommand] using heq)]
    have hkind : cmd.kind = .group := by
      by_contra hne
      exact heq (.inl hne)
    simp only [hkind, groupCommand] at h ⊢
    exact ⟨fun h' => (of_decide_eq_true h').2.symm, fun h' =>
      decide_eq_true ⟨(of_decide_eq_true h).1, h'.symm⟩⟩

section

variable {ι : Type} {i : ι} {userId generation : ℤ} {js : Json} {w w₁ : World ι}
  {v : AcceptResultView} {parsed : ParsedChatMessage}

lemma ChatPost.group_message
    (h : ChatPost i userId generation .group js w w₁ (.ok (some v))) (hok : v.ok = true)
    (hparse : parseChatMessage .group js = .ok (0, parsed)) (hexplicit : parsed.legacy = false) :
    ∃ m clientMessageId rows,
      w₁.store.acceptedUnder ⟨toUInt64 userId, parsed.clientMessageId⟩ = some m ∧
      clientMessageId.value = parsed.clientMessageId ∧
      samePayload m.command { groupCommand parsed rows with clientMessageId } = true ∧
      v = viewOf parsed.clientMessageId (outcomeOf m v.duplicate) := by
  cases h with
  | rejected | unresolved => cases hok
  | @handled parsed' target clientMessageId outcome hparse' hkey hresolved haccept =>
    cases hparse.symm.trans hparse'
    rw [keyText, hexplicit] at hkey
    have hvalue : clientMessageId.value = parsed.clientMessageId := hkey
    cases hresolved with
    | @group rows hrows hmember hqueried =>
      rw [← hvalue]
      cases haccept with
      | @again m hfound hsame honly =>
        refine ⟨m, clientMessageId, rows, ?_, rfl, hsame, rfl⟩
        rw [honly.rest]
        exact hfound
      | conflict => cases hok
      | @created m hfree hnew =>
        have hkey' : m.key = ⟨toUInt64 userId, clientMessageId.value⟩ := by
          rw [Message.key, hnew.sender, hnew.command]
        refine ⟨m, clientMessageId, rows, ?_, rfl, ?_, rfl⟩
        · rw [hnew.accepted]
          exact if_pos hkey'
        · rw [hnew.command]
          exact samePayload_self _

/-- The answer to a later command with the same key, group and content, if the query of the
group succeeds and the user is still a member. -/
lemma ChatPost.group_retry {reply : Except Fault (Option AcceptResultView)} {m : Message}
    {clientMessageId : ClientMessageId} {rows rows' : List ℤ}
    (h : ChatPost i userId generation .group js w w₁ reply)
    (hparse : parseChatMessage .group js = .ok (0, parsed)) (hexplicit : parsed.legacy = false)
    (hm : w.store.acceptedUnder ⟨toUInt64 userId, parsed.clientMessageId⟩ = some m)
    (hvalue : clientMessageId.value = parsed.clientMessageId)
    (hsame : samePayload m.command { groupCommand parsed rows with clientMessageId } = true)
    (hqueried : w₁.queried = (parsed.groupId, rows') :: w.queried)
    (hmember : userId ∈ w.membersOf parsed.groupId) :
    reply = .ok (some (viewOf parsed.clientMessageId (outcomeOf m true))) ↔
      memberIds rows' = m.command.members := by
  cases h with
  | dropped hparse' => cases hparse.symm.trans hparse'
  | rejected hparse' herrno =>
    cases hparse.symm.trans hparse'
    exact absurd rfl herrno
  | unresolved hparse' herrno hstore hgroup =>
    cases hparse.symm.trans hparse'
    rcases hgroup rfl with hsame' | hnot
    · rw [hqueried] at hsame'
      exact absurd hsame' (by simp)
    · exact absurd hmember hnot
  | unusable hparse' hkey =>
    cases hparse.symm.trans hparse'
    rw [keyText, hexplicit] at hkey
    have hvalid := clientMessageId.valid
    rw [hvalue] at hvalid
    exact absurd (hvalid.symm.trans hkey) (by simp)
  | @handled parsed' target clientMessageId' outcome hparse' hkey hresolved haccept =>
    cases hparse.symm.trans hparse'
    rw [keyText, hexplicit] at hkey
    have hvalue' : clientMessageId'.value = parsed.clientMessageId := hkey
    cases hresolved with
    | @group rows'' hrows hmember' hqueried' =>
      obtain ⟨-, rfl⟩ : parsed.groupId = parsed.groupId ∧ rows' = rows'' := by
        simpa using hqueried.symm.trans hqueried'
      have hm' : w.store.findAccepted clientMessageId' ⟨toUInt64 userId⟩ = some m := by
        rw [← hvalue'] at hm
        exact hm
      rw [← samePayload_group_iff (hvalue'.trans hvalue.symm) hsame, ← hvalue']
      cases haccept with
      | again hfound hagain =>
        obtain rfl := Option.some.inj (hm'.symm.trans hfound)
        exact ⟨fun _ => hagain, fun _ => rfl⟩
      | conflict hfound hdiffer =>
        obtain rfl := Option.some.inj (hm'.symm.trans hfound)
        simp [hdiffer, viewOf, outcomeOf, conflictOutcome]
      | created hfree => exact absurd (hm'.symm.trans hfree) (by simp)

end

variable {ι : Type} [DecidableEq ι] {S : Setup ι} {a : Setup.State ι}

/-- **Group retries are idempotent exactly if the query returns the same list.**  Let a group
command of a user with a client message id be answered `ok`; it has been accepted as a message
`m`.  Any later command of the user with the same key, group and content returns; and if the
query of the group succeeds with some rows while the user is a member, the answer is the
duplicate of `m` if and only if these rows are the members that `m` carries, in the same
order. -/
theorem group_retry_iff (h : S.Reachable a) (hidle : a.running = none)
    (hlease : 0 < Json.toInt64 S.leaseMs) {f : Ended ι} (hf : f ∈ a.finished)
    {userId generation : ℤ} {js : Json} {v : AcceptResultView} {parsed : ParsedChatMessage}
    (hop : f.op = .chat userId generation .group js)
    (hparse : parseChatMessage .group js = .ok (0, parsed)) (hexplicit : parsed.legacy = false)
    (hreply : f.reply = .ok (.chat (some v))) (hok : v.ok = true) :
    ∃ m, a.world.store.findMessage ⟨v.messageId⟩ = some m ∧
      v = viewOf parsed.clientMessageId (outcomeOf m v.duplicate) ∧
      ∀ (i : ι) (generation' : ℤ) (js' : Json) (ωs : ℕ → Env),
        parseChatMessage .group js' = .ok (0, parsed) →
        ∃ n reply w, S.system.run a
            (.invoke i (.chat userId generation' .group js') :: Serial.advances ωs n) =
            some ⟨w, none, ⟨i, .chat userId generation' .group js', a.world, reply, w⟩ ::
              a.finished⟩ ∧
          ∀ rows, w.queried = (parsed.groupId, rows) :: a.world.queried →
            userId ∈ a.world.membersOf parsed.groupId →
            (reply = .ok (.chat (some (viewOf parsed.clientMessageId (outcomeOf m true)))) ↔
              memberIds rows = m.command.members) := by
  have hpost := (h.sound.finished f hf).2
  rw [hop, hreply] at hpost
  obtain ⟨_, hview, hchat⟩ := hpost
  obtain rfl := map_chat_eq_ok_iff.1 hview.symm
  obtain ⟨m, clientMessageId, rows, hm, hvalue, hsame, hv⟩ :=
    hchat.group_message hok hparse hexplicit
  have hunder := h.acceptedUnder_of_finished hf hm
  have hid : v.messageId = m.id.value := by rw [hv]; rfl
  refine ⟨m, ?_, hv, fun i generation' js' ωs hparse' => ?_⟩
  · rw [hid]
    exact (h.messages.accepted_iff.1 hunder).2
  obtain ⟨n, reply, w, hrun, hpost'⟩ :=
    h.invoke_returns hidle hlease i (.chat userId generation' .group js') ωs
  refine ⟨n, reply, w, hrun, fun rows' hqueried hmember => ?_⟩
  obtain ⟨reply', hreply', hchat'⟩ := hpost'
  rw [← hchat'.group_retry hparse' hexplicit hunder hvalue hsame hqueried hmember, hreply']
  exact map_chat_eq_ok_iff

/-- The JSON of a group message, for concrete runs. -/
def groupJson (clientMessageId content : String) : Json :=
  .obj [("client_message_id", .str clientMessageId), ("content", .str content),
    ("groupid", .unsigned 7)]

namespace GroupOfThree

/-- A group of three users, one of whom has sent a message to it. -/
def sent : Setup.State Bool :=
  Setup.pair.system.play
    (Setup.pair.system.play (.initial {})
      [⟨true, .joinGroup 7 1, {}, 10⟩, ⟨true, .joinGroup 7 2, {}, 10⟩,
        ⟨true, .joinGroup 7 3, {}, 10⟩])
    [⟨true, .chat 1 1 .group (groupJson "a" "hi"), { now := 1000 }, 100⟩]

/-- The message is sent again; the query returns the same members in another order. -/
def reordered : Setup.State Bool :=
  Setup.pair.system.play sent
    [⟨true, .chat 1 1 .group (groupJson "a" "hi"), { now := 2000, order := [3, 1, 2] }, 100⟩]

/-- The message is sent again after another member has left. -/
def afterLeave : Setup.State Bool :=
  Setup.pair.system.play sent
    [⟨true, .leaveGroup 7 3, {}, 10⟩,
      ⟨true, .chat 1 1 .group (groupJson "a" "hi"), { now := 2000 }, 100⟩]

end GroupOfThree

open GroupOfThree in
theorem group_retry_iff_sent :
    ∃ m, sent.world.store.findMessage ⟨1⟩ = some m ∧
      ∃ n reply w, Setup.pair.system.run sent
          (.invoke false (.chat 1 2 .group (groupJson "a" "hi")) ::
            Serial.advances (fun _ => { now := 2000, order := [1, 2, 3] }) n) =
          some ⟨w, none, ⟨false, .chat 1 2 .group (groupJson "a" "hi"), sent.world, reply, w⟩ ::
            sent.finished⟩ ∧
        ∀ rows, w.queried = (7, rows) :: sent.world.queried → 1 ∈ sent.world.membersOf 7 →
          (reply = .ok (.chat (some (viewOf "a" (outcomeOf m true)))) ↔
            memberIds rows = m.command.members) := by
  obtain ⟨reply, hfinished⟩ : ∃ reply, sent.finished = ⟨true, _, _, reply, _⟩ :: _ :=
    Serial.play_finished (Option.isNone_iff_eq_none.1 (by decide +kernel))
      (Option.isNone_iff_eq_none.1 (by decide +kernel))
  have hview : (sent.finished.head?.bind fun f => viewIn f.reply) =
      some ⟨true, false, 0, "a", 1, 1, 1⟩ := by decide +kernel
  rw [hfinished] at hview
  obtain ⟨m, hm, -, hretry⟩ := group_retry_iff
    (Setup.pair.reachable_play₂ (World.initial_users []) _ _)
    (Option.isNone_iff_eq_none.1 (by decide +kernel)) (by decide)
    (hfinished ▸ List.mem_cons_self) rfl rfl rfl (eq_ok_of_viewIn hview) rfl
  exact ⟨m, hm, hretry false 2 _ _ rfl⟩

open GroupOfThree in
theorem group_retry_conflict :
    Setup.pair.Reachable reordered ∧ Setup.pair.Reachable afterLeave ∧
      (sent.finished.head?.bind fun f => viewIn f.reply) =
        some ⟨true, false, 0, "a", 1, 1, 1⟩ ∧
      (reordered.finished.head?.bind fun f => viewIn f.reply) =
        some { errnoCode := errnoIdempotencyConflict, clientMessageId := "a" } ∧
      1 ∈ reordered.world.membersOf 7 ∧
      (afterLeave.finished.head?.bind fun f => viewIn f.reply) =
        some { errnoCode := errnoIdempotencyConflict, clientMessageId := "a" } ∧
      1 ∈ afterLeave.world.membersOf 7 :=
  ⟨(Setup.pair.reachable_play₂ (World.initial_users []) _ _).trans (Serial.reaches_play _ _),
    (Setup.pair.reachable_play₂ (World.initial_users []) _ _).trans (Serial.reaches_play _ _),
    by decide +kernel, by decide +kernel, by decide +kernel, by decide +kernel,
    by decide +kernel⟩

end MuduoChat
