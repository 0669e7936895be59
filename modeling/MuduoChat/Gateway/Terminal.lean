import MuduoChat.Gateway.Runs

/-!
# The state machine of a delivery

Which changes of state a row goes through.  The specification draws four kinds of arrows and
none that leaves a terminal state.  The code has one more: a row that has expired can still
be acknowledged by its recipient.
-/

namespace MuduoChat

open Std Coordinator ReliableMessaging InMemoryMessageStore Relation

/-- The arrows of the state machine in the specification. -/
inductive Arrow : DeliveryState → DeliveryState → Prop
  | send : Arrow .pending .inFlight
  | revert : Arrow .inFlight .pending
  | acknowledge {s : DeliveryState} (hopen : s.terminal = false) : Arrow s .acknowledged
  | expire {s : DeliveryState} (hopen : s.terminal = false) : Arrow s .expired

variable {ι : Type}

/-- An acknowledgement that is heard is in progress for a row that had expired when it was
invoked. -/
def LateAck (a : Setup.State ι) : Prop :=
  ∃ r acker messageId d, a.running = some r ∧ r.op = .acknowledge acker messageId ∧
    (r.start.process r.who).superseded acker = false ∧
    (r.start.process r.who).outdated acker = false ∧
    r.start.store.row ⟨messageId.value, acker.userId.value⟩ = some d ∧ d.state = .expired

/-- The row under a key in a state. -/
def stateOf (a : Setup.State ι) (k : DeliveryKey) : Option DeliveryState :=
  (a.world.store.row k).map Delivery.state

lemma RowStep.arrow {S : Setup ι} {i : ι} {op : Op} {start w : World ι} {k : DeliveryKey}
    {cur d : Delivery} (h : RowStep S i op start w k (some cur) (some d))
    (hopen : cur.state.terminal = false) : d.state = cur.state ∨ Arrow cur.state d.state := by
  cases h with
  | same => exact .inl rfl
  | ack hop hack =>
    rw [hack.eq]
    exact .inr (.acknowledge hopen)
  | release hrel =>
    rw [hrel.eq, hrel.inFlight]
    exact .inr .revert
  | @claim session message _ _ hclaim =>
    obtain ⟨delay, rfl⟩ := id hclaim.eq
    cases hlegacy : isLegacyClientMessageId message.command.clientMessageId.value with
    | true => exact .inr (.acknowledge hopen)
    | false =>
      rcases claimable_iff.1 hclaim.claimable with hpending | ⟨hfly, -⟩
      · rw [hpending]
        exact .inr .send
      · exact .inl hfly.symm
  | expire => exact .inr (.expire hopen)

variable [DecidableEq ι] {S : Setup ι} {a b : Setup.State ι} {k : DeliveryKey}

lemma Setup.Reachable.arrow_of_step (h : S.Reachable a) (hstep : S.Step a b) (hlate : ¬LateAck a)
    {cur d : Delivery} (hcur : a.world.store.row k = some cur)
    (hd : b.world.store.row k = some d) :
    d.state = cur.state ∨ Arrow cur.state d.state := by
  rcases h.row_cases hstep k with hsame | ⟨r, hr, hrow⟩
  · rw [hcur, hd] at hsame
    rw [Option.some.inj hsame]
    exact .inl rfl
  · rw [hcur, hd] at hrow
    cases hterm : cur.state.terminal with
    | false => exact hrow.arrow hterm
    | true =>
      rcases hrow.of_terminal hterm with rfl | ⟨hexpired, acker, messageId, hop, hack⟩
      · exact .inl rfl
      · have hkey : cur.key = ⟨messageId.value, acker.userId.value⟩ := by
          rw [Delivery.key, hack.message, hack.mine]
        exact absurd ⟨r, acker, messageId, cur, hr, hop, hack.heard.1, hack.heard.2,
          hkey ▸ hack.before, hexpired⟩ hlate

/-- A step at which no acknowledgement comes late. -/
def Setup.PromptStep (S : Setup ι) (a b : Setup.State ι) : Prop := S.Step a b ∧ ¬LateAck a

lemma Setup.Reachable.trans_prompt (h : S.Reachable a) (hrun : ReflTransGen S.PromptStep a b) :
    S.Reachable b :=
  h.trans (ReflTransGen.mono (fun _ _ hstep => hstep.1) _ _ hrun)

/-- **Terminal states are absorbing where no acknowledgement comes late.**  In every run whose
steps are prompt, each step moves each row along an arrow of the state machine or keeps its
state, and a terminal row keeps its state as long as it is there. -/
theorem terminal_absorbing (h : S.Reachable a) (hrun : ReflTransGen S.PromptStep a b) :
    (∀ c k s s', S.PromptStep b c → stateOf b k = some s → stateOf c k = some s' →
        s' = s ∨ Arrow s s') ∧
      ∀ k s, stateOf a k = some s → s.terminal = true →
        ReflTransGen (fun x y => S.PromptStep x y ∧ (stateOf y k).isSome) a b →
        stateOf b k = some s := by
  have onestep {x y : Setup.State ι} (hx : S.Reachable x) (k : DeliveryKey)
      (s s' : DeliveryState) (hxy : S.PromptStep x y)
      (hs : stateOf x k = some s) (hs' : stateOf y k = some s') : s' = s ∨ Arrow s s' := by
    obtain ⟨cur, hcur, rfl⟩ := Option.map_eq_some_iff.1 hs
    obtain ⟨d, hd, rfl⟩ := Option.map_eq_some_iff.1 hs'
    exact hx.arrow_of_step hxy.1 hxy.2 hcur hd
  refine ⟨fun c k s s' => onestep (h.trans_prompt hrun) k s s', fun k s hs hterm hpath => ?_⟩
  -- along the path the state stays the same, since no arrow leaves a terminal state
  have hboth : S.Reachable b ∧ stateOf b k = some s := by
    clear hrun
    induction hpath with
    | refl => exact ⟨h, hs⟩
    | @tail x y _ hxy ih =>
      obtain ⟨hx, hsx⟩ := ih
      obtain ⟨hstep, hsome⟩ := hxy
      obtain ⟨s', hs'⟩ := Option.isSome_iff_exists.1 hsome
      refine ⟨hx.step hstep.1, ?_⟩
      rcases onestep hx k s s' hstep hsx hs' with rfl | harrow
      · exact hs'
      · cases harrow <;> simp_all
  exact hboth.2

/-! ### An acknowledgement that comes late -/

/-- A row has expired at a tick seven days after its message was accepted. -/
def expiredRow : Setup.State Bool :=
  Setup.pair.system.play (.initial {})
    [⟨true, .accept ⟨⟨1⟩, 1⟩ (directTo 2 ⟨"a", valid_a⟩), { now := 1000 }, 100⟩,
      ⟨true, .runTick, { now := 1000 + 7 * 24 * 3600 * 1000 + 1 }, 100⟩]

/-- The recipient comes up, is sent another message, and acknowledges it; then there is another
tick. -/
def afterExpiry : List (Serial.Act Bool Env Op) :=
  let env := { now := 1000 + 7 * 24 * 3600 * 1000 + 2, disposition := .accepted }
  [⟨false, .sessionAvailable ⟨⟨2⟩, 1⟩, env, 100⟩,
    ⟨false, .accept ⟨⟨1⟩, 1⟩ (directTo 2 ⟨"b", valid_b⟩), env, 100⟩,
    ⟨false, .acknowledge ⟨⟨2⟩, 1⟩ ⟨2⟩, env, 100⟩, ⟨true, .runTick, env, 100⟩]

/-- The test for `LateAck`. -/
def acksLate (a : Setup.State Bool) : Bool :=
  match a.running with
  | some ⟨i, .acknowledge acker messageId, start, _⟩ =>
    !(start.process i).superseded acker && !(start.process i).outdated acker &&
      (start.store.row ⟨messageId.value, acker.userId.value⟩).any (·.state = .expired)
  | _ => false

lemma acksLate_of_lateAck {a : Setup.State Bool} (h : LateAck a) : acksLate a = true := by
  obtain ⟨⟨i, op, start, rest⟩, acker, messageId, d, hr, rfl, hactive, hcurrent, hd, hstate⟩ := h
  simp [acksLate, hr, hactive, hcurrent, hd, hstate]

/-- While the second message is sent and acknowledged, the first row stays expired. -/
theorem terminal_absorbing_expiredRow :
    stateOf expiredRow ⟨1, 2⟩ = some .expired ∧
      stateOf (Setup.pair.system.play expiredRow afterExpiry) ⟨2, 2⟩ = some .acknowledged ∧
      stateOf (Setup.pair.system.play expiredRow afterExpiry) ⟨1, 2⟩ = some .expired := by
  have hexpired : stateOf expiredRow ⟨1, 2⟩ = some .expired := by decide +kernel
  have hprompt : ∀ x ∈ Setup.pair.system.taken expiredRow afterExpiry, acksLate x.1 = false ∧
      ∀ b ∈ Setup.pair.system.next x.1 x.2, (stateOf b ⟨1, 2⟩).isSome = true := by decide +kernel
  have hrun : ReflTransGen (fun x y => Setup.pair.PromptStep x y ∧ (stateOf y ⟨1, 2⟩).isSome = true)
      expiredRow (Setup.pair.system.play expiredRow afterExpiry) := by
    refine Serial.reaches_play_of fun x hx b hb => ⟨⟨⟨_, hb⟩, fun hlate => ?_⟩, (hprompt x hx).2 b hb⟩
    cases (acksLate_of_lateAck hlate).symm.trans (hprompt x hx).1
  refine ⟨hexpired, by decide +kernel, ?_⟩
  exact (terminal_absorbing (Setup.pair.reachable_play (World.initial_users []) _)
    (ReflTransGen.mono (fun _ _ h => h.1) _ _ hrun)).2 _ _ hexpired rfl hrun

/-- The recipient acknowledges the message one millisecond after the tick. -/
def lateAck : Setup.State Bool :=
  Setup.pair.system.play expiredRow
    [⟨true, .acknowledge ⟨⟨2⟩, 1⟩ ⟨1⟩, { now := 1000 + 7 * 24 * 3600 * 1000 + 2 }, 3⟩]

/-- The acknowledgement has been written. -/
def lateAcked : Setup.State Bool :=
  (Setup.pair.system.next lateAck (.advance {})).get (by decide +kernel)

theorem expired_row_acknowledged :
    Setup.pair.Reachable lateAck ∧ Setup.pair.Step lateAck lateAcked ∧
      stateOf lateAck ⟨1, 2⟩ = some .expired ∧
      stateOf lateAcked ⟨1, 2⟩ = some .acknowledged :=
  ⟨Setup.pair.reachable_play₂ (World.initial_users []) _ _,
    ⟨_, (Option.some_get _).symm⟩, by decide +kernel, by decide +kernel⟩

end MuduoChat
