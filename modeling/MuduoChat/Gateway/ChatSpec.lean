import MuduoChat.Gateway.MessagingSpec

/-!
# Chat commands and what they achieve

A chat command is dropped by the parser, rejected with an error number, or handed to reliable
messaging under a key.  For a group the command that is handed on contains the members that
the query of the group has just returned, in the order in which it returned them.
-/

namespace MuduoChat

open Std Coordinator ReliableMessaging Prog InMemoryMessageStore

/-- The text of the key under which a parsed command is handled. -/
def keyText (p : Process) (userId : ℤ) (parsed : ParsedChatMessage) : String :=
  if parsed.legacy then makeLegacyIdentity userId p.legacyCounter else parsed.clientMessageId

/-- The command that a direct message stands for, without its key. -/
def directCommand (parsed : ParsedChatMessage) : SendMessageCommand :=
  { kind := .direct
    content := parsed.content
    directRecipient := ⟨toUInt64 parsed.directRecipient⟩ }

/-- The command that a group message stands for, without its key. -/
def groupCommand (parsed : ParsedChatMessage) (userIds : List ℤ) : SendMessageCommand :=
  { kind := .group
    content := parsed.content
    groupId := ⟨toUInt64 parsed.groupId⟩
    members := userIds.map fun u => ⟨toUInt64 u⟩ }

variable {ι : Type}

/-- How the target of a parsed command is found. -/
inductive Resolved (w w₁ : World ι) (userId : ℤ) (parsed : ParsedChatMessage) :
    CommandKind → SendMessageCommand → Prop
  | direct (huser : parsed.directRecipient ∈ w.users) (hqueried : w₁.queried = w.queried) :
      Resolved w w₁ userId parsed .direct (directCommand parsed)
  | group {rows : List ℤ} (hrows : rows.Perm (w.membersOf parsed.groupId))
      (hmember : userId ∈ rows)
      (hqueried : w₁.queried = (parsed.groupId, rows) :: w.queried) :
      Resolved w w₁ userId parsed .group (groupCommand parsed rows)

/-- How a chat command takes a world to another one and what it answers. -/
inductive ChatPost (i : ι) (userId generation : ℤ) (kind : CommandKind) (js : Json)
    (w w₁ : World ι) : Except Fault (Option AcceptResultView) → Prop
  | dropped {e : Json.Error} (hparse : parseChatMessage kind js = .error e)
      (hstore : w₁.store = w.store) :
      ChatPost i userId generation kind js w w₁ (.ok none)
  | rejected {errno : ℕ} {parsed : ParsedChatMessage}
      (hparse : parseChatMessage kind js = .ok (errno, parsed)) (herrno : errno ≠ 0)
      (hstore : w₁.store = w.store) :
      ChatPost i userId generation kind js w w₁
        (.ok (some { errnoCode := errno, clientMessageId := parsed.clientMessageId }))
  | unresolved {parsed : ParsedChatMessage} {errno : ℕ}
      (hparse : parseChatMessage kind js = .ok (0, parsed)) (herrno : errno ≠ 0)
      (hstore : w₁.store = w.store)
      (hgroup : kind = .group →
        w₁.queried = w.queried ∨ userId ∉ w.membersOf parsed.groupId) :
      ChatPost i userId generation kind js w w₁ (.ok (some { errnoCode := errno }))
  | unusable {parsed : ParsedChatMessage}
      (hparse : parseChatMessage kind js = .ok (0, parsed))
      (hkey : ClientMessageId.isValid (keyText (w.process i) userId parsed) = false)
      (hstore : w₁.store = w.store) :
      ChatPost i userId generation kind js w w₁ (.error .other)
  | handled {parsed : ParsedChatMessage} {target : SendMessageCommand}
      {clientMessageId : ClientMessageId} {outcome : AcceptOutcome}
      (hparse : parseChatMessage kind js = .ok (0, parsed))
      (hkey : clientMessageId.value = keyText (w.process i) userId parsed)
      (hresolved : Resolved w w₁ userId parsed kind target)
      (haccept : AcceptPost w.store w₁.store ⟨⟨toUInt64 userId⟩, toUInt64 generation⟩
        { target with clientMessageId } outcome) :
      ChatPost i userId generation kind js w w₁
        (.ok (some (viewOf clientMessageId.value outcome)))

lemma Resolved.congr {w w1 w2 : World ι} {userId : ℤ} {parsed : ParsedChatMessage}
    {kind : CommandKind} {target : SendMessageCommand}
    (h : Resolved w w1 userId parsed kind target) (hqueried : w2.queried = w1.queried) :
    Resolved w w2 userId parsed kind target := by
  cases h with
  | direct huser hq => exact .direct huser (hqueried.trans hq)
  | group hrows hmember hq => exact .group hrows hmember (hqueried.trans hq)

variable [DecidableEq ι] {S : Setup ι} {i : ι} {op : Op} {start w : World ι}

/-- The query for a user has no error number exactly if it succeeds and there is the
user. -/
lemma checkUserExists_op {userId : ℤ} {f : ℕ → Code (Except ℕ SendMessageCommand)}
    {Q : Except Fault (Except ℕ SendMessageCommand) → World ι → Prop}
    (h : ∀ errno : ℕ, (errno = 0 → userId ∈ w.users) →
      Sat (S.under i (Timely S i op start)) Q (f errno) w) :
    Sat (S.under i (Timely S i op start)) Q
      (Prog.ask (E := Port) (.checkUserExists userId) >>= f) w := by
  refine sat_ask (fun _ => rfl) fun _ => ⟨⟨trivial, trivial⟩, fun ω => h _ ?_⟩
  split
  · simp [errnoDependencyBusy]
  · split
    · exact fun _ => ‹_›
    · simp [errnoNotFound]

lemma groupMembers_op {groupId : ℤ} {f : Option (List ℤ) → Code (Except ℕ SendMessageCommand)}
    {Q : Except Fault (Except ℕ SendMessageCommand) → World ι → Prop}
    (hfails : Sat (S.under i (Timely S i op start)) Q (f none) w)
    (h : ∀ rows : List ℤ, rows.Perm (w.membersOf groupId) →
      Sat (S.under i (Timely S i op start)) Q (f (some rows))
        { w with queried := (groupId, rows) :: w.queried }) :
    Sat (S.under i (Timely S i op start)) Q
      (Prog.ask (E := Port) (.groupMembers groupId) >>= f) w := by
  let rows (ω : Env) : List ℤ := World.arranged (w.membersOf groupId) ω.order
  let answer (ω : Env) : Option (List ℤ) := if ω.fails then none else some (rows ω)
  let after (ω : Env) : World ι :=
    if ω.fails then w else { w with queried := (groupId, rows ω) :: w.queried }
  have hhandle (ω : Env) :
      World.handle i (.groupMembers groupId) ω w = some (.ok (answer ω), after ω) := by
    by_cases hf : ω.fails <;> simp [World.handle, answer, after, rows, hf]
  refine sat_ask hhandle fun _ => ⟨⟨trivial, trivial⟩, fun ω => ?_⟩
  by_cases hf : ω.fails = true
  · simpa only [answer, after, if_pos hf] using hfails
  · simpa only [answer, after, if_neg hf] using h _ (World.arranged_perm _ _)

lemma resolveTarget_op (userId : ℤ) (parsed : ParsedChatMessage) (kind : CommandKind) :
    Sat (S.under i (Timely S i op start))
      (Returns fun r w1 => w1.store = w.store ∧ w1.process = w.process ∧
        match r with
        | .error errno => errno ≠ 0 ∧ (kind = .group →
            w1.queried = w.queried ∨ userId ∉ w.membersOf parsed.groupId)
        | .ok target => Resolved w w1 userId parsed kind target)
      (resolveTarget userId parsed kind) w := by
  cases kind with
  | direct =>
    refine checkUserExists_op fun errno huser => ?_
    refine sat_ite (fun herr => sat_ret fun _ => ⟨rfl, rfl, herr, by simp⟩) fun herr => ?_
    exact sat_ret fun _ => ⟨rfl, rfl, .direct (huser (not_not.1 herr)) rfl⟩
  | group =>
    refine groupMembers_op ?_ fun rows hperm => ?_
    · exact sat_ret fun _ => ⟨rfl, rfl, by simp [errnoDependencyBusy], fun _ => .inl rfl⟩
    · have hmember : userId ∉ rows → userId ∉ w.membersOf parsed.groupId :=
        fun hnot hmem => hnot (hperm.mem_iff.2 hmem)
      refine sat_ite (fun hempty => ?_) fun _ => sat_ite (fun hmem => ?_) fun hnot => ?_
      · refine sat_ret fun _ => ⟨rfl, rfl, by simp [errnoNotFound], fun _ => .inr ?_⟩
        exact hmember (by simp [List.isEmpty_iff.1 hempty])
      · exact sat_ret fun _ => ⟨rfl, rfl, .group hperm (by simpa using hmem) rfl⟩
      · refine sat_ret fun _ => ⟨rfl, rfl, by simp [errnoNotConversationMember], fun _ =>
          .inr (hmember (by simpa using hnot))⟩

lemma chooseKey_op (userId : ℤ) (parsed : ParsedChatMessage) :
    Sat (S.under i (Timely S i op start))
      (Returns fun key w1 => key = keyText (w.process i) userId parsed ∧
        w1.store = w.store ∧ w1.queried = w.queried)
      (chooseKey userId parsed) w := by
  unfold chooseKey keyText
  cases parsed.legacy with
  | true =>
    refine sat_ask (fun _ => rfl) fun _ => ⟨⟨trivial, trivial⟩, fun ω => ?_⟩
    exact sat_ret fun _ => ⟨rfl, rfl, rfl⟩
  | false => exact sat_ret fun _ => ⟨rfl, rfl, rfl⟩

/-- **A chat command** ends in one of the five ways. -/
theorem handleChat_op (hop : op.accepts = true) (userId generation : ℤ) (kind : CommandKind)
    (js : Json) (hstart : start.store.nextMessageId ≤ w.store.nextMessageId) :
    Sat (S.under i (Timely S i op start))
      (fun r w1 => ChatPost i userId generation kind js w w1 r)
      (handleChat (S.messaging i) userId generation kind js) w := by
  unfold handleChat
  split
  · rename_i e hparse
    exact sat_ret fun _ => .dropped hparse rfl
  · rename_i errno parsed hparse
    refine sat_ite (fun herrno => sat_ret fun _ => .rejected hparse herrno rfl) fun herrno => ?_
    obtain rfl : errno = 0 := not_not.1 herrno
    unfold acceptChatCommand
    rw [Prog.bind_assoc]
    refine sat_bind (resolveTarget_op userId parsed kind) ?_
    rintro (errno | target) w1 - ⟨hstore, hprocess, htarget⟩
    · exact sat_ret fun _ => .unresolved hparse htarget.1 hstore htarget.2
    · rw [Prog.bind_assoc]
      refine sat_bind (chooseKey_op userId parsed) ?_
      rintro key w2 - ⟨hkey, hstore2, hqueried2⟩
      rw [hprocess] at hkey
      by_cases hvalid : ClientMessageId.isValid key = true
      swap
      · rw [ClientMessageId.ofString, dif_neg hvalid]
        refine sat_fail fun _ => .unusable hparse ?_ (hstore2.trans hstore)
        rw [← hkey]
        simpa using hvalid
      obtain ⟨clientMessageId, rfl⟩ : ∃ c : ClientMessageId, c.value = key := ⟨⟨key, hvalid⟩, rfl⟩
      rw [ClientMessageId.ofString_value]
      refine sat_bind (P := fun v w3 => ∃ outcome, v = viewOf clientMessageId.value outcome ∧
          w3.queried = w2.queried ∧
          AcceptPost w2.store w3.store ⟨⟨toUInt64 userId⟩, toUInt64 generation⟩
            { target with clientMessageId } outcome) ?_ ?_
      · refine Sat.returns_tryCatch (fun _ => rfl) (sat_bind (accept_op hop _ _ ?_) ?_)
        · rwa [hstore2, hstore]
        exact fun outcome w3 _ h3 => sat_ret fun _ => ⟨outcome, rfl, h3.2, h3.1⟩
      · rintro _ w3 - ⟨outcome, rfl, hqueried3, haccept⟩
        rw [hstore2, hstore] at haccept
        exact sat_ret fun _ => .handled hparse hkey
          (htarget.congr (hqueried3.trans hqueried2)) haccept

end MuduoChat
