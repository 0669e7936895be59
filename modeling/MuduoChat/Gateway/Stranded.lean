import MuduoChat.Gateway.HeadOfLine
import MuduoChat.Gateway.Served

/-!
# No head of line is left waiting

If the sink accepts everything, then between two operations the first open row of each
conversation of a user who is online is in flight: whatever settles a row or gives it up claims
again for the right session.  There is one exception.  When the tick expires rows, nobody claims
for the users whose head of line has just expired, so that the next row of the conversation
waits for some other event.
-/

namespace MuduoChat

open Std Coordinator ReliableMessaging Prog InMemoryMessageStore Relation Setup

/-- In each conversation of a user who is online, the first open row is in flight. -/
def NoStrandedHead (w : World Unit) : Prop :=
  ∀ (u : UserId) (session : SessionIdentity) (k : DeliveryKey) (d : Delivery),
    (w.process ()).activeByUser[u]? = some session → w.store.row k = some d → d.recipient = u →
    d.state.terminal = false →
    (∀ k' d', w.store.row k' = some d' → SameLine d d' → d'.state.terminal = false →
      w.store.sequenceOf d ≤ w.store.sequenceOf d') →
    d.state = .inFlight

/-- If expiry at this time takes a row in flight of a user who is online, it takes all open rows
of the conversation with it. -/
def ExpiresWhole (w : World Unit) (nowMs : ℤ) (limit : ℕ) : Prop :=
  ∀ (k : DeliveryKey) (d : Delivery) (session : SessionIdentity),
    (k, d) ∈ OrderedMap.select w.store.deliveries (dueForExpiry nowMs) limit →
    d.state = .inFlight → (w.process ()).activeByUser[d.recipient]? = some session →
    ∀ k' d', w.store.row k' = some d' → SameLine d d' → d'.state.terminal = false →
      (k', d') ∈ OrderedMap.select w.store.deliveries (dueForExpiry nowMs) limit

/-- If the operation in progress is about to expire rows, it does so by whole conversations. -/
def WholeExpiry (a : Setup.State Unit) : Prop :=
  ∀ r nowMs limit k, a.running = some r →
    r.rest = .call (E := Port) (.store (.expireDeliveriesDetailed nowMs limit)) k →
    ExpiresWhole a.world nowMs limit

/-- A step in surroundings whose sink accepts everything. -/
def Setup.AcceptingStep (S : Setup Unit) (a b : Setup.State Unit) : Prop :=
  ∃ l, S.system.next a l = some b ∧ ∀ ω, l = .advance ω → ω.disposition = .accepted

variable {S : Setup Unit} {w w₁ : World Unit}

/-! ### Expiry -/

lemma ExpiresWhole.allServed {nowMs : ℤ} {limit : ℕ} (h : ExpiresWhole w nowMs limit)
    (hrows : w.store.Rows) (hw : AllServed w)
    (hstore : w₁.store = (w.store.expireDeliveriesDetailed nowMs limit).2)
    (hprocess : w₁.process = w.process) : AllServed w₁ := by
  have hafter : w₁.store.deliveries = OrderedMap.rewriteAll
      (fun d => { d with state := DeliveryState.expired }) w.store.deliveries
      (OrderedMap.select w.store.deliveries (dueForExpiry nowMs) limit) := by
    rw [hstore]
    rfl
  -- a row that has been selected is not open any more
  have hexpired {k : DeliveryKey} {d cur : Delivery}
      (hmem : (k, d) ∈ OrderedMap.select w.store.deliveries (dueForExpiry nowMs) limit)
      (hcur : w₁.store.row k = some cur) : cur.state.terminal = true := by
    have hget := OrderedMap.getElem?_rewriteAll_of_mem
      (fun d => { d with state := DeliveryState.expired }) w.store.deliveries
      (OrderedMap.nodup_keys_select _ _ _) hmem
    rw [← hafter] at hget
    obtain rfl := Option.some.inj (hcur.symm.trans hget)
    simp
  have hrow (k : DeliveryKey) : w₁.store.row k = w.store.row k ∨
      ∃ d, (k, d) ∈ OrderedMap.select w.store.deliveries (dueForExpiry nowMs) limit := by
    by_cases hmem : ∃ d, (k, d) ∈ OrderedMap.select w.store.deliveries (dueForExpiry nowMs) limit
    · exact .inr hmem
    · refine .inl ?_
      unfold row
      rw [hafter]
      exact OrderedMap.getElem?_rewriteAll_of_notMem _ _ fun d hd => hmem ⟨d, hd⟩
  have hkeyed {k : DeliveryKey} {d : Delivery} {u : UserId} (hd : w.store.row k = some d)
      (hk : k.recipient = u.value) : d.recipient = u :=
    Id.ext ((congrArg DeliveryKey.recipient (hrows.key_eq hd)).trans hk)
  intro u session hsession _ c k cur hcur hk hconv hopen
  rw [hprocess] at hsession
  rcases hrow k with hsame | ⟨d, hmem⟩
  swap
  · rw [hexpired hmem hcur] at hopen
    cases hopen
  rw [hsame] at hcur
  obtain ⟨k', d, hd, hk', hconv', hfly⟩ := hw u session hsession id c k cur hcur hk hconv hopen
  rcases hrow k' with hsame' | ⟨d', hmem⟩
  · exact ⟨k', d, hsame'.trans hd, hk', hconv', hfly⟩
  -- the row in flight has expired, and with it the row that is said to be open
  obtain rfl : d' = d := Option.some.inj ((OrderedMap.mem_select hmem).1.symm.trans hd)
  have hd' := hkeyed hd hk'
  have hline : SameLine d' cur :=
    ⟨(hkeyed hcur hk).trans hd'.symm, Id.ext (hconv.trans hconv'.symm)⟩
  have hboth := h k' d' session hmem hfly (hd' ▸ hsession) k cur hcur hline hopen
  have hterm := hexpired hboth (hsame.trans hcur)
  rw [hopen] at hterm
  cases hterm

/-! ### The operations in calm surroundings -/

/-- The answers that are given: the sink accepts, and rows expire by whole conversations. -/
def CalmAnswer (c : Call) (ω : Env) (w : World Unit) : Prop :=
  (∀ attempt, c = .deliver attempt → ω.disposition = .accepted) ∧
    ∀ nowMs limit, c = .store (.expireDeliveriesDetailed nowMs limit) → ExpiresWhole w nowMs limit

/-- The contract of programs that are only run in such surroundings. -/
noncomputable def Setup.calm (S : Setup Unit) : Contract Port (World Unit) Env :=
  { calmContract with handle := (S.system.guard CalmAnswer).handle () }

lemma Setup.calm_handle {c : Call} {ω : Env} {x : Except Fault c.Value × World Unit}
    (h : S.calm.handle c ω w = some x) : CalmAnswer c ω w ∧ World.handle () c ω w = some x :=
  Serial.guard_handle (M := S.system) h

lemma Setup.calm_of_calmContract {α : Type} {Q : Except Fault α → World Unit → Prop} {p : Code α}
    (h : Sat calmContract Q p w) : Sat S.calm Q p w := by
  have hboth : Sat S.calm (fun r w₁ => Q r w₁ ∧ Q r w₁) p w := by
    refine Sat.and ?_ ?_ ?_ ?_ ?_ h h
    · intro c ω s x hx
      have hx' := (calm_handle hx).2
      exact ⟨hx', hx'⟩
    · exact fun _ _ h => ⟨h, h⟩
    · exact fun _ h => ⟨h, h⟩
    · exact fun _ _ _ h _ => h
    · exact fun _ _ => trivial
  exact hboth.mono fun _ _ _ h => h.1

lemma runTick_calm :
    Sat S.calm (Returns fun _ w₁ => AllServed w → AllServed w₁) ((S.messaging ()).runTick) w := by
  refine Sat.ask_bind ?_
  rintro _ rfl hw
  refine ⟨trivial, fun ω r w₁ hr => ?_⟩
  obtain ⟨rfl, rfl⟩ := Prod.mk.inj (Option.some.inj (calm_handle hr).2)
  refine Sat.ask_bind ?_
  rintro _ rfl hw1
  refine ⟨trivial, fun ω' r w2 hr => ?_⟩
  obtain ⟨⟨-, hwhole⟩, hr⟩ := calm_handle hr
  cases hr
  refine calm_of_calmContract ((tickRest_calm _ _).returns_mono fun _ w3 _ h3 hserved => ?_)
  refine h3 ((hwhole _ _ rfl).allServed hw1.consistent.rows ?_ rfl rfl)
  exact hserved.congr (fun _ _ _ _ => rfl) fun _ _ _ hs => hs

lemma sessionAvailable_calm (session : SessionIdentity) :
    Sat S.calm (Returns fun _ w₁ => AllServed w → AllServed w₁)
      (ReliableMessaging.sessionAvailable (S.messaging ()) session) w := by
  refine Sat.returns_bind (fun _ => rfl)
    (calm_of_calmContract (sessionAvailable_coordinator_calm session)) fun _ w₁ _ h1 => ?_
  refine Sat.returns_bind (fun _ => rfl) (Sat.returns_tryCatch (fun _ => rfl) runTick_calm)
    fun _ w2 _ h2 => ?_
  rintro _ rfl - hw
  exact h2 (h1 hw)

lemma calm_reply {α : Type} {p : Code α} {f : α → Reply}
    (h : Sat S.calm (Returns fun _ w₁ => AllServed w → AllServed w₁) p w) :
    Sat S.calm (fun _ w₁ => AllServed w → AllServed w₁) (p >>= fun x => pure (f x)) w := by
  refine Sat.returns_bind (fun _ => rfl) h fun _ w₁ _ h1 => ?_
  rintro _ rfl -
  exact h1

lemma code_calm (op : Op) :
    Sat S.calm (fun _ w₁ => AllServed w → AllServed w₁) (S.code () op) w := by
  cases op with
  | accept sender cmd => exact calm_reply (calm_of_calmContract (accept_calm sender cmd))
  | acknowledge acker messageId =>
    exact calm_reply (calm_of_calmContract (acknowledge_calm acker messageId))
  | sessionAvailable session => exact calm_reply (sessionAvailable_calm session)
  | sessionClosed session =>
    exact calm_reply (calm_of_calmContract (sessionClosed_calm session))
  | resume session => exact calm_reply (calm_of_calmContract (resume_calm session))
  | wakeupAccepted recipients =>
    refine calm_reply (calm_of_calmContract ((onAccepted_calm recipients).returns_mono ?_))
    exact fun _ w₁ _ h1 hw => h1 (hw.mono (by simp))
  | runTick => exact calm_reply runTick_calm
  | chat userId generation kind js =>
    refine Sat.bind (fun _ => rfl)
      ((calm_of_calmContract (handleChat_calm userId generation kind js)).mono ?_)
    rintro (e | view) w₁ - h1
    · exact h1
    · rintro _ rfl -
      exact h1
  | joinGroup groupId userId | leaveGroup groupId userId =>
    refine calm_of_calmContract (sat_ask (fun _ => rfl) fun _ => ⟨trivial, fun _ => ?_⟩)
    exact sat_ret fun _ hw => hw.congr (fun _ _ _ _ => rfl) fun _ _ _ hs => hs

lemma Calm.step {c : Call} {ω : Env} {r : Except Fault c.Value} (hw : Calm w)
    (hconsistent : w₁.Consistent) (hallow : CalmSave c w) (hanswer : CalmAnswer c ω w)
    (h : World.handle () c ω w = some (r, w₁)) : Calm w₁ := by
  have hsent : ∀ e ∈ w₁.sent, e.2 = .accepted := by
    cases c with
    | deliver attempt =>
      cases h
      intro e he
      rcases List.mem_cons.1 he with rfl | he
      · exact hanswer.1 attempt rfl
      · exact hw.accepted e he
    | groupMembers groupId =>
      simp only [World.handle] at h
      split at h <;> obtain ⟨-, rfl⟩ := answer_inj h <;> exact hw.accepted
    | _ =>
      cases h
      exact hw.accepted
  rcases World.handle_process_eq h with ⟨p, rfl, hp⟩ | rfl | hp
  · exact ⟨hconsistent, hp ▸ hallow.1, hp ▸ hallow.2, hsent⟩
  · cases h
    refine ⟨hconsistent, fun session => ?_, fun u session hs => ?_, hsent⟩
    · simpa using hw.unpaused session
    · exact hw.keyed u session (by simpa using hs)
  · exact ⟨hconsistent, hp ▸ hw.unpaused, hp ▸ hw.keyed, hsent⟩

/-- The operations in calm surroundings. -/
theorem Setup.verified_calm (S : Setup Unit) :
    (S.system.guard CalmAnswer).Verified Calm
      (fun i op start c w => Allowed S i op start c w ∧ CalmSave c w) True
      (fun _ _ start _ final => AllServed start → AllServed final) where
  keeps i op start c ω w r w₁ hw hallow h := by
    obtain ⟨hanswer, hhandle⟩ := Serial.guard_handle h
    exact hw.step (hallow.1.consistent hw.consistent hhandle) hallow.2 hanswer hhandle
  obeys i op w hw := by
    have hallowed := S.verified.obeys i op w hw.consistent
    refine Sat.mono (Sat.and ?_ ?_ ?_ ?_ ?_ hallowed (code_calm op)) fun _ _ _ h => h.2
    · exact fun c ω s x hx => ⟨(Serial.guard_handle hx).2, hx⟩
    · exact fun _ _ h => ⟨h, h⟩
    · exact fun _ h => ⟨h.consistent, h⟩
    · exact fun _ _ _ h1 h2 => ⟨h1, h2⟩
    · exact fun _ _ => trivial

lemma World.Initial.calm (h : w.Initial) : Calm w where
  consistent := h.consistent
  unpaused session := by simp [h.process]
  keyed u session hs := by simp [h.process] at hs
  accepted e he := by simp [h.sent] at he

lemma World.Initial.allServed (h : w.Initial) : AllServed w := by
  intro u session hs
  simp [h.process] at hs

lemma AllServed.noStrandedHead (hw : Calm w) (h : AllServed w) : NoStrandedHead w := by
  intro u session k d hs hd hu hopen hfirst
  have hrows := hw.consistent.rows
  have hk : k.recipient = u.value := by
    rw [← hrows.key_eq hd, ← hu]
    rfl
  obtain ⟨k', d', hd', hk', hconv, hfly⟩ := h u session hs id _ k d hd hk rfl hopen
  have hline : SameLine d d' := by
    refine ⟨Id.ext ?_, Id.ext hconv⟩
    rw [hu, ← hk', ← hrows.key_eq hd']
    rfl
  -- the row in flight comes first, and so does the given one
  have hle : w.store.sequenceOf d ≤ w.store.sequenceOf d' := hfirst k' d' hd' hline (by simp [hfly])
  have hge : w.store.sequenceOf d' ≤ w.store.sequenceOf d := by
    by_contra hlt
    have hterm := hrows.head hd' hfly k d hd hline.1.symm hline.2.symm (by omega)
    rw [hopen] at hterm
    cases hterm
  obtain rfl : k' = k :=
    hrows.key_eq_of_sequenceOf hw.consistent.messages hd hd' hline (by omega)
  obtain rfl : d' = d := Option.some.inj (hd'.symm.trans hd)
  exact hfly

/-- **No stranded head.**  In a run with a sink that accepts everything, in which rows of users
who are online expire by whole conversations only, after every completed operation the first open
row of each conversation of a user who is online is in flight. -/
theorem no_stranded_head {w₀ : World Unit} (hw₀ : w₀.Initial) {a : Setup.State Unit}
    (hrun : ReflTransGen (fun a b => S.AcceptingStep a b ∧ WholeExpiry a) (.initial w₀) a)
    (hidle : a.running = none) : NoStrandedHead a.world := by
  have hguard : ReflTransGen (S.system.guard CalmAnswer).Step (.initial w₀) a := by
    refine ReflTransGen.mono ?_ _ _ hrun
    rintro x y ⟨⟨l, hl, hsink⟩, hexpiry⟩
    refine ⟨l, Serial.guard_next hl fun i op s c k ω hr hω => ⟨fun _ _ => hsink ω hω, ?_⟩⟩
    rintro nowMs limit rfl
    exact hexpiry _ nowMs limit k hr rfl
  have hsound := S.verified_calm.sound (Serial.Sound.initial hw₀.calm) hguard
  have hserved := (Serial.history hguard).preserves hw₀.allServed
    fun f hf hstart => (hsound.finished f hf).2 hstart
  simp only [Serial.Config.settled, hidle] at hserved
  exact hserved.noStrandedHead hsound.inv

/-! ### Concrete runs -/

/-- One gateway with the default configuration. -/
def Setup.single : Setup Unit where
  leaseMs := 30000
  config := {}
  bootId _ := 1

/-- A user comes online and is sent two messages. -/
def twoMessages : List (Serial.Act Unit Env Op) :=
  [⟨(), .sessionAvailable ⟨⟨2⟩, 1⟩, { now := 500, disposition := .accepted }, 100⟩,
    ⟨(), .accept ⟨⟨1⟩, 1⟩ (directTo 2 ⟨"a", valid_a⟩),
      { now := 1000, disposition := .accepted }, 100⟩,
    ⟨(), .accept ⟨⟨1⟩, 1⟩ (directTo 2 ⟨"b", valid_b⟩),
      { now := 2000, disposition := .accepted }, 100⟩]

/-- The user acknowledges the first message. -/
def acknowledging : List (Serial.Act Unit Env Op) :=
  twoMessages ++
    [⟨(), .acknowledge ⟨⟨2⟩, 1⟩ ⟨1⟩, { now := 3000, disposition := .accepted }, 100⟩]

/-- The retention of the first message passes, and a tick expires it. -/
def expiringFirst : List (Serial.Act Unit Env Op) :=
  twoMessages ++
    [⟨(), .runTick,
      { now := 1001 + Setup.single.config.messageRetentionMs, disposition := .accepted }, 100⟩]

/-- The operation in progress is about to expire rows, and there are some. -/
def expiring (a : Setup.State Unit) : Bool :=
  match a.running with
  | some ⟨_, _, _, .call (.store (.expireDeliveriesDetailed _ _)) _⟩ =>
    !a.world.store.deliveries.isEmpty
  | _ => false

lemma wholeExpiry_of_expiring_eq_false {a : Setup.State Unit} (h : expiring a = false) :
    WholeExpiry a := by
  rintro ⟨i, op, start, _⟩ nowMs limit cont hr rfl k d session hmem
  simp only [expiring, hr, Bool.not_eq_false'] at h
  have hd := (OrderedMap.mem_select hmem).1
  rw [TreeMap.getElem?_of_isEmpty h] at hd
  cases hd

/-- The step is taken in surroundings whose sink accepts. -/
def accepts : Serial.Choice Unit Env Op → Bool
  | .invoke _ _ => true
  | .advance ω => ω.disposition = .accepted

lemma acceptingStep_of_accepts {a b : Setup.State Unit} {l : Serial.Choice Unit Env Op}
    (hl : accepts l = true) (h : S.system.next a l = some b) : S.AcceptingStep a b := by
  refine ⟨l, h, ?_⟩
  rintro ω rfl
  simpa [accepts] using hl

lemma Setup.reaches_accepting {acts : List (Serial.Act Unit Env Op)}
    (h : ∀ x ∈ S.system.taken (.initial w) acts, accepts x.2 = true ∧ expiring x.1 = false) :
    ReflTransGen (fun a b => S.AcceptingStep a b ∧ WholeExpiry a) (.initial w)
      (S.system.play (.initial w) acts) :=
  Serial.reaches_play_of fun x hx _ hnext =>
    ⟨acceptingStep_of_accepts (h x hx).1 hnext, wholeExpiry_of_expiring_eq_false (h x hx).2⟩

theorem no_stranded_head_acknowledging :
    let a := Setup.single.system.play (.initial {}) acknowledging
    (a.world.store.row ⟨2, 2⟩).map Delivery.state = some .inFlight ∧ NoStrandedHead a.world :=
  ⟨by decide +kernel,
    no_stranded_head (World.initial_users [])
      (Setup.reaches_accepting (by decide +kernel))
      (Option.isNone_iff_eq_none.1 (by decide +kernel))⟩

/-- The state after the tick. -/
def firstExpired : Setup.State Unit := Setup.single.system.play (.initial {}) expiringFirst

lemma firstExpired_accepting : ReflTransGen single.AcceptingStep (.initial {}) firstExpired := by
  have haccepts : ∀ x ∈ single.system.taken (.initial {}) expiringFirst, accepts x.2 = true := by
    decide +kernel
  exact Serial.reaches_play_of fun x hx _ h => acceptingStep_of_accepts (haccepts x hx) h

/-- **A stranded head.**  The first of two messages expires.  The second one is then the head of
line of a user who is online, and stays pending after the tick. -/
theorem stranded_head :
    ReflTransGen Setup.single.AcceptingStep (.initial {}) firstExpired ∧
      firstExpired.running = none ∧ ¬NoStrandedHead firstExpired.world := by
  refine ⟨firstExpired_accepting, Option.isNone_iff_eq_none.1 (by decide +kernel), fun h => ?_⟩
  have hrow : (firstExpired.world.store.row ⟨2, 2⟩).map (fun d => (d.recipient, d.state)) =
      some (⟨2⟩, .pending) := by decide +kernel
  have hseq : (firstExpired.world.store.row ⟨2, 2⟩).map firstExpired.world.store.sequenceOf =
      some 2 := by decide +kernel
  -- the row of the first message is the only other one, and it has expired
  have hothers : (firstExpired.world.store.deliveries.toList.all fun e =>
      e.2.state.terminal || decide (2 ≤ firstExpired.world.store.sequenceOf e.2)) = true := by
    decide +kernel
  obtain ⟨d, hd, hdrow⟩ := Option.map_eq_some_iff.1 hrow
  obtain ⟨hrecipient, hpending⟩ := Prod.mk.inj hdrow
  rw [hd, Option.map_some, Option.some.injEq] at hseq
  have hfly := h ⟨2⟩ ⟨⟨2⟩, 1⟩ ⟨2, 2⟩ d (by decide +kernel) hd hrecipient (by simp [hpending]) ?_
  · rw [hpending] at hfly
    cases hfly
  · intro k' d' hd' _ hopen
    have hmem := List.all_eq_true.1 hothers (k', d') (OrderedMap.mem_toList.2 hd')
    rw [hseq]
    simpa [hopen] using hmem

end MuduoChat
