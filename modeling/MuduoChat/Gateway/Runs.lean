import MuduoChat.Gateway.ChatSpec

/-!
# Runs of the gateways

The contracts of all operations together: the ledger is consistent in every state of every
run, every step changes each row in one of the seven ways, and every operation that ends does
so as its postcondition says.
-/

namespace MuduoChat

open Std Coordinator ReliableMessaging Prog InMemoryMessageStore Relation

variable {ι : Type}

/-- What the operations achieve.  Those that cannot accept a message leave the messages
alone. -/
def Setup.post (i : ι) : Op → World ι → Except Fault Reply → World ι → Prop
  | .accept sender cmd, w, r, w₁ =>
    ∃ outcome, r = .ok (.accepted outcome) ∧ AcceptPost w.store w₁.store sender cmd outcome
  | .chat userId generation kind js, w, r, w₁ =>
    ∃ v, r = v.map Reply.chat ∧ ChatPost i userId generation kind js w w₁ v
  | _, w, r, w₁ => (∃ reply, r = .ok reply) ∧ w.store.SameMessages w₁.store

lemma map_chat_eq_ok_iff {r : Except Fault (Option AcceptResultView)}
    {v : Option AcceptResultView} : r.map Reply.chat = .ok (.chat v) ↔ r = .ok v := by
  cases r with
  | error e => constructor <;> intro h <;> cases h
  | ok v' => constructor <;> intro h <;> cases h <;> rfl

lemma World.initial_users (users : List ℤ) : World.Initial ({ users } : World ι) :=
  ⟨rfl, fun _ => rfl, rfl⟩

lemma World.Initial.consistent {w : World ι} (h : w.Initial) : w.Consistent := by
  constructor <;> rw [h.store]
  exacts [.empty, .empty]

variable [DecidableEq ι] {S : Setup ι} {i : ι} {op : Op} {w : World ι}

lemma sat_sameMessages (hop : op.accepts = false) {p : Code Reply}
    (h : Sat (S.under i (Timely S i op w)) (Returns fun _ _ => True) p w) :
    Sat (S.under i (Timely S i op w))
      (fun r w1 => (∃ reply, r = .ok reply) ∧ w.store.SameMessages w1.store) p w := by
  have hframe := Sat.frame (R := fun w w' : World ι => w.store.SameMessages w'.store)
    (fun h h' => h.trans h') (by rintro w _ rfl; exact .refl _)
    (fun c ω w r w' _ hallow hw => sameMessages_of_handle hw ?_) h
  · refine hframe.mono ?_
    rintro (_ | reply) w1 - ⟨hret, hsame⟩
    · exact absurd hret id
    · exact ⟨⟨reply, rfl⟩, hsame⟩
  · rintro draft rfl
    exact absurd hallow.1.1 (by simp [hop])

lemma sat_reply {α : Type} {p : Code α} {f : α → Reply}
    (h : Sat (S.under i (Timely S i op w)) (Returns fun _ _ => True) p w) :
    Sat (S.under i (Timely S i op w)) (Returns fun _ _ => True) (p >>= fun x => pure (f x)) w :=
  sat_bind h fun _ _ _ _ => sat_ret fun _ => trivial

/-- **The operations keep to their contracts and to their times.** -/
theorem Setup.verified_inTime (S : Setup ι) :
    S.system.Verified World.Consistent (Timely S) (¬0 < Json.toInt64 S.leaseMs) Setup.post where
  keeps i op start c ω w r w' hw hallow h := hallow.1.consistent hw h
  obeys i op w hw := by
    cases op with
    | accept sender cmd =>
      refine sat_bind (accept_op rfl sender cmd le_rfl) fun outcome w1 _ h1 => sat_ret fun _ => ?_
      exact ⟨outcome, rfl, h1.1⟩
    | acknowledge acker messageId =>
      exact sat_sameMessages rfl (sat_reply (acknowledge_op acker messageId))
    | sessionAvailable session =>
      exact sat_sameMessages rfl (sat_reply (sessionAvailable_op session))
    | sessionClosed session =>
      exact sat_sameMessages rfl (sat_reply (sessionClosed_op session))
    | resume session => exact sat_sameMessages rfl (sat_reply (resume_op session))
    | wakeupAccepted recipients =>
      refine sat_sameMessages rfl (sat_reply ((onAccepted_op recipients).returns_mono ?_))
      exact fun _ _ _ _ => trivial
    | runTick => exact sat_sameMessages rfl (sat_reply (runTick_op rfl))
    | chat userId generation kind js =>
      refine Sat.bind (fun _ => rfl) ((handleChat_op rfl _ _ kind js le_rfl).mono ?_)
      rintro (e | view) w1 _ h1
      · exact ⟨.error e, rfl, h1⟩
      · exact sat_ret fun _ => ⟨.ok view, rfl, h1⟩
    | joinGroup groupId userId | leaveGroup groupId userId =>
      refine sat_sameMessages rfl (sat_ask (fun _ => rfl) fun _ => ⟨⟨trivial, trivial⟩, ?_⟩)
      exact fun _ => sat_ret fun _ => trivial

theorem Setup.verified (S : Setup ι) :
    S.system.Verified World.Consistent (Allowed S) (¬0 < Json.toInt64 S.leaseMs) Setup.post where
  keeps _ _ _ _ _ _ _ _ hw hallow h := hallow.consistent hw h
  obeys i op w hw := Sat.widen (fun _ _ _ h => h.1) (S.verified_inTime.obeys i op w hw)

/-! ### Reachable states -/

lemma World.handle_isSome (i : ι) (c : Call) (ω : Env) (w : World ι) :
    (World.handle i c ω w).isSome := by
  cases c with
  | groupMembers groupId =>
    unfold World.handle
    dsimp only
    split <;> rfl
  | _ => rfl

namespace Setup.Reachable

variable {a b : State ι}

/-- Every reachable state is sound. -/
theorem sound (h : S.Reachable a) :
    S.system.Sound World.Consistent (Allowed S) (¬0 < Json.toInt64 S.leaseMs) Setup.post a := by
  obtain ⟨w, hw, hrun⟩ := h
  exact S.verified.sound (Serial.Sound.initial hw.consistent) hrun

lemma trans (h : S.Reachable a) (hrun : ReflTransGen S.Step a b) : S.Reachable b := by
  obtain ⟨w, hw, hrun'⟩ := h
  exact ⟨w, hw, hrun'.trans hrun⟩

lemma step (h : S.Reachable a) (hstep : S.Step a b) : S.Reachable b := h.trans (.single hstep)

lemma messages (h : S.Reachable a) : a.world.store.Messages := h.sound.inv.messages

lemma rows (h : S.Reachable a) : a.world.store.Rows := h.sound.inv.rows

/-- **Inversion of a step**, for one row: it is as before, or the operation in progress has
changed it in one of the seven ways. -/
lemma row_cases (h : S.Reachable a) (hstep : S.Step a b) (k : DeliveryKey) :
    b.world.store.row k = a.world.store.row k ∨
      ∃ r, a.running = some r ∧
        RowStep S r.who r.op r.start a.world k (a.world.store.row k) (b.world.store.row k) := by
  rcases h.sound.step_cases hstep with heq | ⟨r, c, _, ω, v, hr, -, hallow, hw⟩
  · exact .inl (by rw [heq])
  · exact .inr ⟨r, hr, hallow.rowStep hw k⟩

lemma findMessage_step (h : S.Reachable a) (hstep : S.Step a b) {j : MessageId} {m : Message}
    (hm : a.world.store.findMessage j = some m) : b.world.store.findMessage j = some m := by
  rcases h.sound.step_cases hstep with heq | ⟨r, c, _, ω, v, -, -, -, hw⟩
  · rw [heq, hm]
  by_cases hc : ∃ draft, c = .store (.insertMessage draft)
  · obtain ⟨draft, rfl⟩ := hc
    obtain ⟨-, hworld⟩ := answer_inj hw
    rw [← hworld]
    exact findMessage_insertMessage_of_some h.messages hm
  · rw [(sameMessages_of_handle hw fun draft hd => hc ⟨draft, hd⟩).findMessage, hm]

lemma findMessage_steps (h : S.Reachable a) (hrun : ReflTransGen S.Step a b) {j : MessageId}
    {m : Message} (hm : a.world.store.findMessage j = some m) :
    b.world.store.findMessage j = some m := by
  induction hrun with
  | refl => exact hm
  | tail hrun hstep ih => exact (h.trans hrun).findMessage_step hstep ih

/-- **Operations return.**  If leases last at all, an operation that is invoked ends, and it
ends as its postcondition says, however its calls are answered. -/
theorem invoke_returns (h : S.Reachable a) (hidle : a.running = none)
    (hlease : 0 < Json.toInt64 S.leaseMs) (i : ι) (op : Op) (ωs : ℕ → Env) :
    ∃ n reply w, S.system.run a (.invoke i op :: Serial.advances ωs n) =
        some ⟨w, none, ⟨i, op, a.world, reply, w⟩ :: a.finished⟩ ∧
      Setup.post i op a.world reply w := by
  have hfalse : (¬0 < Json.toInt64 S.leaseMs) = False := by simp [hlease]
  have hverified := S.verified
  have hsound := h.sound
  rw [hfalse] at hverified hsound
  have hnext : S.system.next a (.invoke i op) =
      some { a with running := some ⟨i, op, a.world, S.system.code i op⟩ } := by
    simp [Serial.next, hidle]
  have hinvoked := hverified.sound_step hsound ⟨_, hnext⟩
  obtain ⟨n, reply, w, hrun⟩ := hverified.returns World.handle_isSome hinvoked rfl ωs
  refine ⟨n, reply, w, ?_, ?_⟩
  · rw [Serial.run, List.foldlM_cons, hnext]
    exact hrun
  · have hend := hverified.sound hinvoked (Serial.reaches_of_run hrun)
    exact (hend.finished ⟨i, op, a.world, reply, w⟩ List.mem_cons_self).2

end Setup.Reachable

lemma Setup.reachable_play (S : Setup ι) {w : World ι} (hw : w.Initial)
    (acts : List (Serial.Act ι Env Op)) :
    S.Reachable (S.system.play (Serial.Config.initial w) acts) :=
  ⟨w, hw, Serial.reaches_play acts _⟩

lemma Setup.reachable_play₂ (S : Setup ι) {w : World ι} (hw : w.Initial)
    (acts acts' : List (Serial.Act ι Env Op)) :
    S.Reachable (S.system.play (S.system.play (Serial.Config.initial w) acts) acts') :=
  (S.reachable_play hw acts).trans (Serial.reaches_play acts' _)

/-! ### Concrete runs -/

/-- Two gateways with the default configuration, for concrete runs. -/
def Setup.pair : Setup Bool where
  leaseMs := 30000
  config := {}
  bootId i := if i then 1 else 2

lemma valid_a : ClientMessageId.isValid "a" = true := by decide

lemma valid_b : ClientMessageId.isValid "b" = true := by decide

/-- A direct message, for concrete runs. -/
def directTo (recipient : ℕ) (clientMessageId : ClientMessageId) : SendMessageCommand :=
  { clientMessageId, directRecipient := ⟨recipient⟩ }

end MuduoChat
