import MuduoChat.Outbox.ConsumerSpec
import MuduoChat.Outbox.RelaySpec

/-!
# Handing events on

Relays share one outbox.  Each of them claims events under a lease, publishes them and marks
them, and between two of its steps the others may do anything, so leases can overlap and marks
can come late.  An event that has been processed has been published nevertheless, no event is
lost, and a claim returns the events that are there to be claimed and no others.
-/

namespace MuduoChat

open Prog Relation Parallel StreamSetup

variable {ι : Type} [DecidableEq ι] {T : StreamSetup ι} {a b c : StreamSetup.State ι}

/-! ### Runs -/

lemma StreamSetup.verified (T : StreamSetup ι) :
    T.system.VerifiedAtRest T.Inv Stream.Others T.Allow True T.AtRest fun _ _ _ _ => True where
  refl := Stream.Others.refl
  trans := fun _ _ _ _ => Stream.Others.trans
  keeps := fun _ _ _ _ _ _ hs hc h => hs.keeps hc h
  leaves := fun _ _ _ _ _ _ _ hij _ _ h => (Stream.moves_of_handle h).others hij
  lasting := fun _ _ _ _ _ _ _ _ _ _ _ _ h => h
  stays := fun _ _ _ hw h => h.others hw
  obeys := by
    intro i op w _ hrest
    cases op with
    | runScan =>
      refine Sat.bind (Stream.Others.refl i)
        ((LocalOutboxRelay.runScan_obeys (T.relay i) hrest).mono fun r w1 _ h1 => ?_)
      cases r with
      | ok n => exact fun w2 h2 _ => ⟨trivial, h1.others h2⟩
      | error e => exact ⟨trivial, h1⟩
    | poll =>
      refine Sat.returns_bind (Stream.Others.refl i) (KafkaEventConsumer.poll_spec hrest) ?_
      exact fun _ w1 _ h1 w2 h2 _ => ⟨trivial, h1.others h2⟩
    | accept draft | produce p gap value =>
      refine Sat.ask_bind fun w1 h1 _ => ⟨Allow.of_free trivial, fun ω v w2 hv => ?_⟩
      have h2 := (hrest.others h1).moves (contract_moves hv) (fun _ h => h) (by rintro s ⟨⟩)
      cases hv
      exact fun w3 h3 _ => ⟨trivial, h2.others h3⟩

lemma StreamSetup.Reachable.sound (ha : T.Reachable a) :
    T.system.Sound T.Inv Stream.Others T.Allow True (fun _ _ _ _ => True) a := by
  obtain ⟨w, hw, hrun⟩ := ha
  exact (T.verified.sound (SoundAtRest.initial (Inv.initial hw) (AtRest.initial hw)) hrun).sound

lemma StreamSetup.Reachable.step (ha : T.Reachable a) (h : T.Step a b) : T.Reachable b := by
  obtain ⟨w, hw, hrun⟩ := ha
  exact ⟨w, hw, hrun.tail h⟩

lemma StreamSetup.Reachable.step_cases (ha : T.Reachable a) (h : T.Step a b) :
    b.world = a.world ∨ ∃ i call ω v, T.Allow i call a.world ∧
      Stream.handle T.partitionCount i call ω a.world = some (v, b.world) := by
  obtain ⟨l, hl⟩ := h
  rcases next_cases hl with ⟨i, op, -, -, rfl⟩ | ⟨i, ω, op, v, -, -, rfl⟩ |
    ⟨i, ω, op, e, -, -, rfl⟩ | ⟨i, ω, op, call, k, v, w, -, hr, hw, rfl⟩
  · exact .inl rfl
  · exact .inl rfl
  · exact .inl rfl
  · exact .inr ⟨i, call, ω, v, ha.sound.allowed Stream.Others.refl hr, hw⟩

/-! ### Events over a run -/

/-- What has become of the outbox between two states: an event that has been processed since has
been published, and all events are still there, with the payload and the message they had. -/
structure Stream.KeepsOutbox (w w' : Stream ι) : Prop where
  history : w.history <:+ w'.history
  published : ∀ n e', w'.store.outboxEvent n = some e' → e'.processedAtMs ≠ 0 →
    (∃ e, w.store.outboxEvent n = some e ∧ e.processedAtMs ≠ 0) ∨ w'.PublishedOk n
  kept : ∀ n e, w.store.outboxEvent n = some e → ∃ e', w'.store.outboxEvent n = some e' ∧
    e'.payload = e.payload ∧ e'.aggregateMessageId = e.aggregateMessageId

namespace Stream

variable {w w' w'' : Stream ι} {i : ι}

omit [DecidableEq ι] in
lemma KeepsOutbox.of_eq (hhist : w.history <:+ w'.history)
    (h : ∀ n, w'.store.outboxEvent n = w.store.outboxEvent n) : KeepsOutbox w w' :=
  ⟨hhist, fun n e' he hp => .inl ⟨e', (h n).symm.trans he, hp⟩,
    fun n e he => ⟨e, (h n).trans he, rfl, rfl⟩⟩

omit [DecidableEq ι] in
lemma KeepsOutbox.trans (h : KeepsOutbox w w') (h' : KeepsOutbox w' w'') : KeepsOutbox w w'' := by
  refine ⟨h.history.trans h'.history, fun n e'' he hp => ?_, fun n e he => ?_⟩
  · rcases h'.published n e'' he hp with ⟨e', he', hp'⟩ | hpub
    · exact (h.published n e' he' hp').imp_right fun hpub => hpub.mono h'.history
    · exact .inr hpub
  · obtain ⟨e', he', hpay, hagg⟩ := h.kept n e he
    obtain ⟨e'', he'', hpay', hagg'⟩ := h'.kept n e' he'
    exact ⟨e'', he'', hpay'.trans hpay, hagg'.trans hagg⟩

/-- The step lemma: what one call does to the outbox. -/
lemma keepsOutbox_of_handle {partitionCount : ℕ} {call : OutboxCall} {ω : StreamEnv}
    {v : Except OutboxFault call.Value}
    (hmark : ∀ n nowMs, call = .markOutboxProcessed n nowMs → w.PublishedOk n)
    (h : handle partitionCount i call ω w = some (v, w')) : KeepsOutbox w w' := by
  have hmoves := moves_of_handle h
  have hhist : w.history <:+ w'.history := by
    obtain ⟨es, -, -, hes⟩ := hmoves.history
    exact ⟨_, hes.symm⟩
  rcases hmoves.outbox with hwrite | hsame
  · cases call with
    | claimOutboxEvents nowMs owner untilMs limit =>
      cases h
      have hclaim := w.store.outboxEvent_claimOutboxEvents nowMs owner untilMs limit
      refine ⟨hhist, fun n e' he hp => .inl ?_, fun n e he => ?_⟩
      · rcases hclaim n with hsame | ⟨e, he0, -, hlease⟩
        · exact ⟨e', hsame.symm.trans he, hp⟩
        · obtain rfl := Option.some.inj (hlease.symm.trans he)
          exact ⟨e, he0, hp⟩
      · rcases hclaim n with hsame | ⟨e0, he0, -, hlease⟩
        · exact ⟨e, hsame.trans he, rfl, rfl⟩
        · obtain rfl := Option.some.inj (he0.symm.trans he)
          exact ⟨_, hlease, rfl, rfl⟩
    | markOutboxProcessed k nowMs =>
      cases h
      have hlook := w.store.outboxEvent_markOutboxProcessed k nowMs
      have hpub := hmark k nowMs rfl
      refine ⟨hhist, fun n e' he hp => ?_, fun n e he => ?_⟩
      · replace he := (hlook n).symm.trans he
        split_ifs at he with hk
        · exact .inr (hk ▸ hpub)
        · exact .inl ⟨e', he, hp⟩
      · by_cases hk : k = n
        · refine ⟨e.processed nowMs, (hlook n).trans ?_, rfl, rfl⟩
          rw [if_pos hk, he, Option.map_some]
        · exact ⟨e, (hlook n).trans ((if_neg hk).trans he), rfl, rfl⟩
    | insertMessage draft =>
      cases h
      have hlook := OrderedMap.getElem?_insertIfNew w.store.outboxEvents
        w.store.nextOutboxEventId
      refine ⟨hhist, fun n e' he hp => ?_, fun n e he => ⟨e, ?_, rfl, rfl⟩⟩
      · replace he := (hlook n _).symm.trans he
        split_ifs at he with hn
        · -- a new event has not been processed
          cases he
          exact absurd rfl hp
        · exact .inl ⟨e', he, hp⟩
      · refine (hlook n _).trans ((if_neg ?_).trans he)
        rintro ⟨rfl, hnone⟩
        cases hnone.symm.trans he
    | _ => exact hwrite.elim
  · refine KeepsOutbox.of_eq hhist fun n => ?_
    simp only [InMemoryMessageStore.outboxEvent, hsame]

end Stream

lemma StreamSetup.Reachable.keepsOutbox (ha : T.Reachable a) (h : T.Step a b) :
    a.world.KeepsOutbox b.world := by
  rcases ha.step_cases h with heq | ⟨i, call, ω, v, hallow, hv⟩
  · rw [heq]
    exact Stream.KeepsOutbox.of_eq (List.suffix_refl _) fun _ => rfl
  · exact Stream.keepsOutbox_of_handle hallow.published hv

/-- The run lemma. -/
lemma StreamSetup.Reachable.keepsOutbox_run (ha : T.Reachable a)
    (h : ReflTransGen T.Step a b) : T.Reachable b ∧ a.world.KeepsOutbox b.world := by
  induction h with
  | refl => exact ⟨ha, Stream.KeepsOutbox.of_eq (List.suffix_refl _) fun _ => rfl⟩
  | tail _ hstep ih => exact ⟨ih.1.step hstep, ih.2.trans (ih.1.keepsOutbox hstep)⟩

/-! ### Claims -/

/-- What a claim does: an event whose lease is running is not returned, one that can be claimed
is returned unless there are enough with smaller ids, and what is returned is then leased. -/
structure Stream.ClaimsFree (w w' : Stream ι) (t : ℤ) (limit : ℕ) (events : List OutboxEvent) :
    Prop where
  leased : ∀ n e, w.store.outboxEvent n = some e → e.processedAtMs = 0 → e.leaseOwner ≠ "" →
    t < e.leaseUntilMs → ∀ e' ∈ events, e'.id ≠ n
  returned : ∀ n e, w.store.outboxEvent n = some e → e.processedAtMs = 0 → e.availableAtMs ≤ t →
    e.leaseOwner = "" ∨ e.leaseUntilMs ≤ t →
    (∃ e' ∈ events, e'.id = n) ∨ events.length = limit ∧ ∀ e' ∈ events, e'.id < n
  lease : ∀ e' ∈ events, w'.store.outboxEvent e'.id = some e' ∧ e'.leaseOwner ≠ ""

lemma StreamSetup.Inv.claimsFree {w : Stream ι} (hw : T.Inv w) {nowMs untilMs : ℤ}
    {owner : String} (howner : owner ≠ "") {limit : ℕ} {w' : Stream ι}
    (hstore : w'.store = (w.store.claimOutboxEvents nowMs owner untilMs limit).2) :
    w.ClaimsFree w' nowMs limit (w.store.claimOutboxEvents nowMs owner untilMs limit).1 := by
  refine ⟨fun n e he hp hown hlt e' he' hid => ?_, fun n e he hp hav hfree => ?_, fun e' he' => ?_⟩
  · obtain ⟨n', e0, he0, hc, rfl, -⟩ := InMemoryMessageStore.mem_claimOutboxEvents he'
    obtain rfl : n' = n := (hw.events n' e0 he0).symm.trans hid
    obtain rfl := Option.some.inj (he0.symm.trans he)
    obtain ⟨-, -, hfree⟩ := OutboxEvent.claimable_iff.1 hc
    rcases hfree with hfree | hfree
    · exact hown hfree
    · omega
  · have hc : e.claimable nowMs = true := OutboxEvent.claimable_iff.2 ⟨hp, hav, hfree⟩
    have hcomplete : e.lease owner untilMs ∈
        (w.store.claimOutboxEvents nowMs owner untilMs limit).1 ∨ _ :=
      InMemoryMessageStore.claimOutboxEvents_complete he hc
    rcases hcomplete with h | ⟨hlen, hsmall⟩
    · exact .inl ⟨_, h, hw.events n e he⟩
    · refine .inr ⟨hlen, fun e' he' => ?_⟩
      obtain ⟨n', e1, he1, rfl, hlt⟩ := hsmall e' he'
      have hid : (e1.lease owner untilMs).id = n' := hw.events n' e1 he1
      omega
  · obtain ⟨n, e0, he0, -, rfl, hlook⟩ := InMemoryMessageStore.mem_claimOutboxEvents he'
    have hid : (e0.lease owner untilMs).id = n := hw.events n e0 he0
    rw [hstore, hid]
    exact ⟨hlook, howner⟩

lemma StreamSetup.Reachable.claimsFree {i : ι} {t : ℤ} {limit : ℕ} {events : List OutboxEvent}
    (ha : T.Reachable a) (h : T.Step a b)
    (hnote : b.world.history = (i, .claimed t limit events) :: a.world.history) :
    a.world.ClaimsFree b.world t limit events := by
  rcases ha.step_cases h with heq | ⟨j, call, ω, v, hallow, hv⟩
  · rw [heq] at hnote
    exact absurd hnote (by simp)
  · obtain ⟨es, hes, -, hhist⟩ := (Stream.moves_of_handle hv).history
    obtain ⟨e, rfl⟩ : ∃ e, es = [e] := by
      refine List.length_eq_one_iff.1 ?_
      have hlen := congrArg List.length (hhist.symm.trans hnote)
      simp only [List.length_append, List.length_map, List.length_cons] at hlen
      omega
    have hnotes := hes e (by simp)
    have hcons : (j, e) :: a.world.history = (i, .claimed t limit events) :: a.world.history :=
      hhist.symm.trans hnote
    obtain ⟨rfl, rfl⟩ := Prod.mk.inj (List.cons.inj hcons).1
    cases call with
    | claimOutboxEvents nowMs owner untilMs limit =>
      obtain ⟨rfl, rfl⟩ := hnotes
      have howner := hallow.owned _ _ _ _ rfl
      obtain ⟨-, hworld⟩ := answer_inj hv
      have hclaimed := (congrArg Stream.history hworld).trans hnote
      obtain ⟨-, hentry⟩ := Prod.mk.inj (List.cons.inj hclaimed).1
      cases hentry
      exact ha.sound.inv.claimsFree howner (congrArg Stream.store hworld).symm
    | _ => exact hnotes.elim

/-- **Outbox hand-off.**  Between any two states of a run, an event is processed only if a
publisher has answered `ok` for it, and no event is removed or changed in its payload or its
message.  Each claim along the run leaves the events alone whose lease is running, and returns
those that are free unless it has returned as many as it may with smaller ids. -/
theorem outbox_handoff {ι : Type} [DecidableEq ι] {T : StreamSetup ι}
    {a b : StreamSetup.State ι} (ha : T.Reachable a) (hab : ReflTransGen T.Step a b) :
    a.world.KeepsOutbox b.world ∧
      ∀ c i t limit events, T.Step b c →
        c.world.history = (i, .claimed t limit events) :: b.world.history →
        b.world.ClaimsFree c.world t limit events := by
  obtain ⟨hb, hkeeps⟩ := ha.keepsOutbox_run hab
  exact ⟨hkeeps, fun c i t limit events hstep hnote => hb.claimsFree hstep hnote⟩

/-- Two relays and two consumers, for runs.  Nothing is JSON to the consumers. -/
def StreamSetup.pair : StreamSetup Bool where
  relay := fun b => if b then { leaseOwner := "relay:1:0" } else { leaseOwner := "relay:2:1" }
  consumer := fun _ => { parse := fun _ => none }
  partitionCount := 1

/-- A message is accepted, and a relay hands its event on. -/
def handedOn : StreamSetup.State Bool :=
  StreamSetup.pair.system.play (Config.initial {})
    [{ who := true, op := some (.accept { conversationId := ⟨1⟩ }), env := {} },
     { who := true, op := some .runScan,
       env := { now := 1000, publish := .ok [{ ok := true }], appended := [0] } }]

lemma Stream.initial_empty {ι : Type} : ({} : Stream ι).Initial where
  events n e h := by simp [InMemoryMessageStore.outboxEvent] at h
  sorted _ := List.Pairwise.nil
  bounded _ := by simp
  consumer _ := rfl
  history := rfl

/-- The event of the message has been processed, so it has been published. -/
theorem outbox_handoff_handedOn : handedOn.world.PublishedOk 1 := by
  have hrun : ReflTransGen StreamSetup.pair.Step (Config.initial {}) handedOn := reaches_play _ _
  obtain ⟨hkeeps, -⟩ := outbox_handoff ⟨{}, Stream.initial_empty, .refl⟩ hrun
  refine (hkeeps.published 1 ((handedOn.world.store.outboxEvent 1).get (by decide +kernel))
    (Option.some_get _).symm (by decide +kernel)).resolve_left ?_
  rintro ⟨e, he, -⟩
  simp [Config.initial, InMemoryMessageStore.outboxEvent] at he

end MuduoChat
