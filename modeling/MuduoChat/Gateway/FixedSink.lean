import MuduoChat.Delivery.Claiming
import MuduoChat.Gateway.ClaimBound
import MuduoChat.Lib.Leads
import MuduoChat.Store.Writes

/-!
# Claims under a clock that stands still

For one reading of the clock, and for a sink whose answer depends on the attempt only, the
programs of the coordinator can be run on paper.  A claim comes to one of the outcomes of
`Claiming`, and what it does to the world is what the outcome says (`ClaimEffect`).  Conversely,
without jitter a claim with an outcome does end.
-/

namespace MuduoChat

open Std Coordinator Prog KeyedList

def Call.disposition (sink : DeliveryAttempt → DeliverDisposition) : Call → DeliverDisposition
  | .deliver attempt => sink attempt
  | _ => .closed

/-- How calls are answered while the clock stands still and the sink answers by the attempt. -/
def World.fixed {ι : Type} [DecidableEq ι] (now : ℤ)
    (sink : DeliveryAttempt → DeliverDisposition) (i : ι) : Handler Port (World ι) Env :=
  fun c ω w => World.handle i c { ω with now, disposition := c.disposition sink } w

section Rules

variable {ι : Type} [DecidableEq ι] {now : ℤ} {sink : DeliveryAttempt → DeliverDisposition} {i : ι}
  {w : World ι} {α : Type}

lemma leads_store {c : StoreCall} :
    Leads (World.fixed now sink i) (Code.store c) w (.ret (w.store.answer c).1)
      { w with store := (w.store.answer c).2 } :=
  Leads.ask fun _ => rfl

lemma leads_deliver {attempt : DeliveryAttempt} :
    Leads (World.fixed now sink i) (Code.deliver attempt) w (.ret (sink attempt))
      { w with sent := (attempt, sink attempt) :: w.sent } :=
  Leads.ask fun _ => rfl

lemma leads_nowMs :
    Leads (World.fixed now sink i) Code.nowMs w (.ret now) { w with clock := now } :=
  Leads.ask fun _ => rfl

lemma leads_load : Leads (World.fixed now sink i) Code.load w (.ret (w.process i)) w :=
  Leads.ask fun _ => rfl

lemma leads_save {p : Process} :
    Leads (World.fixed now sink i) (Code.save p) w (.ret ())
      { w with process := Function.update w.process i p } :=
  Leads.ask fun _ => rfl

lemma leads_record {e : MetricEvent} :
    Leads (World.fixed now sink i) (Code.record e) w (.ret ())
      { w with metrics := e :: w.metrics } :=
  Leads.ask fun _ => rfl

lemma leads_modify {g : Process → Process} :
    Leads (World.fixed now sink i) (Code.modify g) w (.ret ())
      { w with process := Function.update w.process i (g (w.process i)) } :=
  (Leads.bind leads_load).trans leads_save

lemma leads_release {d : Delivery} :
    Leads (World.fixed now sink i) (release d) w (.ret ())
      { w with
        store := w.store.updateDelivery (released d)
        metrics := .deliveryTransition (deliveryMetricId d.messageId.value d.recipient.value)
          .inFlight .pending :: w.metrics } :=
  (Leads.bind leads_store).trans leads_record

variable (now sink) in
lemma World.Ends.eval_fixed {Q : α → World ι → Prop} {p : Code α} (h : World.Ends i Q p w)
    (ωs : List Env) :
    ∃ a w₁, p.eval (World.fixed now sink i) ωs w = some (.ok a, w₁) ∧ Q a w₁ := by
  have hfixed : p.Completes (World.fixed now sink i) (fun _ => True) Q w := by
    induction p generalizing w with
    | ret a | fail e | hang => exact h
    | call c k ih =>
      intro ω _
      obtain ⟨r, w₁, hr, hk⟩ := h { ω with now, disposition := c.disposition sink } trivial
      exact ⟨r, w₁, hr, ih r hk⟩
  exact hfixed.eval trivial fun _ _ => trivial

end Rules

/-! ### The effect of a claim -/

abbrev World.groupsOf {ι : Type} (w : World ι) (session : SessionIdentity) :
    List (ℕ × List Delivery) :=
  (byConversation (w.store.deliveriesByRecipient session.userId)).toList

section Effects

variable {ι : Type} {c : Claiming} {i : ι} {w w₁ w₂ : World ι} {o o' : ClaimOutcome}

/-- What a claim with an outcome does to the world. -/
structure ClaimEffect (c : Claiming) (i : ι) (w : World ι) (o : ClaimOutcome) (w₁ : World ι) :
    Prop where
  store : w₁.store = w.store.writeAll o.writes
  paused : (w₁.process i).paused =
    if o.paused then (w.process i).paused.insert c.session else (w.process i).paused
  active : (w₁.process i).activeByUser = (w.process i).activeByUser
  observed : (w₁.process i).observedGenerationByUser = (w.process i).observedGenerationByUser
  sent : w₁.sent = (o.attempts.map fun a => (a, c.sink a)).reverse ++ w.sent

lemma ClaimEffect.refl (c : Claiming) (i : ι) (w : World ι) : ClaimEffect c i w {} w :=
  ⟨rfl, rfl, rfl, rfl, rfl⟩

lemma ClaimEffect.append (h : ClaimEffect c i w o w₁) (hpaused : o.paused = false)
    (h' : ClaimEffect c i w₁ o' w₂) : ClaimEffect c i w (o.append o') w₂ where
  store := by
    rw [h'.store, h.store]
    exact (InMemoryMessageStore.writeAll_append _ _ _).symm
  paused := by
    have hsame : (w₁.process i).paused = (w.process i).paused := by
      rw [h.paused, hpaused]
      rfl
    rw [h'.paused, hsame]
    rfl
  active := h'.active.trans h.active
  observed := h'.observed.trans h.observed
  sent := by
    rw [h'.sent, h.sent]
    simp [ClaimOutcome.append]

lemma ClaimEffect.findMessage (h : ClaimEffect c i w o w₁) :
    w₁.store.findMessage = w.store.findMessage := by
  rw [h.store, InMemoryMessageStore.findMessage_writeAll]

lemma writes_of_claimsAll (hs : w.store.Keyed) (ho : c.ClaimsAll (w.groupsOf c.session) o) :
    ∀ d ∈ o.writes, (w.store.row d.key).isSome ∧ w.store.fillSequence d = d ∧
      d.recipient = c.session.userId := by
  refine ho.forall_writes ?_ ?_
  · rintro message delay head ⟨hpresent, hfill, hrec⟩
    refine ⟨hpresent, ?_, hrec⟩
    exact @fillSequence_of_eq w.store head (c.claimedRow message delay head) rfl rfl hfill
  · intro g hg r hr
    rw [snd_of_mem_byConversation hg] at hr
    obtain ⟨cur, hcur, hu, rfl⟩ := hs.row_of_mem (List.mem_filter.1 hr).1
    refine ⟨by rw [hcur]; rfl, fillSequence_fillSequence _ _, ?_⟩
    rw [w.store.fillSequence_eq cur]
    exact hu

lemma ClaimEffect.deliveriesByRecipient (hs : w.store.Keyed)
    (ho : c.ClaimsAll (w.groupsOf c.session) o) (heffect : ClaimEffect c i w o w₁) (u : UserId) :
    w₁.store.deliveriesByRecipient u =
      overwriteAll Delivery.key (w.store.deliveriesByRecipient u) o.writes := by
  have hwrites := writes_of_claimsAll hs ho
  rw [heffect.store]
  exact InMemoryMessageStore.deliveriesByRecipient_writeAll hs (fun d hd => (hwrites d hd).1)
    (fun d hd => (hwrites d hd).2.1) u

/-- A claim touches the rows of its own user only. -/
lemma ClaimEffect.deliveriesByRecipient_of_ne (hs : w.store.Keyed)
    (ho : c.ClaimsAll (w.groupsOf c.session) o) (heffect : ClaimEffect c i w o w₁) {u : UserId}
    (hu : u ≠ c.session.userId) :
    w₁.store.deliveriesByRecipient u = w.store.deliveriesByRecipient u := by
  rw [heffect.deliveriesByRecipient hs ho]
  refine overwriteAll_of_notMem fun d hd hmem => hu ?_
  obtain ⟨r, hr, hkey⟩ := List.mem_map.1 hmem
  have hrec : r.recipient.value = d.recipient.value := congrArg DeliveryKey.recipient hkey
  rw [InMemoryMessageStore.recipient_of_mem hr, (writes_of_claimsAll hs ho d hd).2.2] at hrec
  exact Id.ext hrec

/-- **After a claim that is not paused there is nothing to claim for the user.** -/
lemma ClaimEffect.settled (hs : w.store.Keyed)
    (ho : c.ClaimsAll (w.groupsOf c.session) o) (heffect : ClaimEffect c i w o w₁)
    (hpaused : o.paused = false) :
    c.Settled (w₁.store.deliveriesByRecipient c.session.userId) := by
  rw [heffect.deliveriesByRecipient hs ho]
  exact ho.settled (hs.nodup_deliveriesByRecipient _) hpaused

end Effects

/-! ### The claim loop -/

section Claims

variable {ι : Type} [DecidableEq ι] {i : ι} {c : Claiming} {w : World ι} {rows : List Delivery}
  {fuel : ℕ} {o : ClaimOutcome}

/-- The calls of a claim are answered by its clock and its sink. -/
abbrev Claiming.handle (c : Claiming) (i : ι) : Handler Port (World ι) Env :=
  World.fixed c.now c.sink i

variable (i fuel rows) in
/-- One round of the loop, on paper. -/
lemma claimLoop_leads_round (hfind : w.store.findMessage = c.find) :
    match c.round rows with
    | .stop attempts paused =>
      ∃ w₁, Leads (c.handle i) (c.co.claimLoop c.session c.now (fuel + 1) rows) w (.ret paused) w₁ ∧
        ClaimEffect c i w ⟨[], attempts, paused⟩ w₁
    | .claim place message head =>
      ∃ w₁, Leads (c.handle i) (c.co.claimLoop c.session c.now (fuel + 1) rows) w
          (c.co.writeClaim c.session c.now message head >>= fun row =>
            c.co.claimLoop c.session c.now fuel (rows.set place row)) w₁ ∧
        ClaimEffect c i w ⟨[], [attemptFor message head], false⟩ w₁ := by
  unfold Claiming.round
  rw [claimLoop]
  cases hhead : headFrom 0 none rows with
  | none => exact ⟨w, Leads.refl _ _, ClaimEffect.refl c i w⟩
  | some x =>
    obtain ⟨place, head⟩ := x
    dsimp only
    unfold Claiming.tryHead
    by_cases hclaimable : claimable c.now head = true
    swap
    · rw [if_neg hclaimable, if_neg hclaimable]
      exact ⟨w, Leads.refl _ _, ClaimEffect.refl c i w⟩
    rw [if_pos hclaimable, if_pos hclaimable]
    have hlookup : Leads (c.handle i) (Code.store (.findMessage head.messageId)) w
        (.ret (c.find head.messageId)) w := by
      rw [← hfind]
      exact leads_store
    cases hmessage : c.find head.messageId with
    | none =>
      rw [hmessage] at hlookup
      exact ⟨w, hlookup.bind, ClaimEffect.refl c i w⟩
    | some message =>
      rw [hmessage] at hlookup
      have hanswer : Leads (c.handle i) (Code.deliver (attemptFor message head)) w
          (.ret (c.sink (attemptFor message head)))
          { w with sent := (attemptFor message head, c.sink (attemptFor message head)) ::
            w.sent } := leads_deliver
      dsimp only
      cases hsink : c.sink (attemptFor message head) with
      | accepted | closed =>
        rw [hsink] at hanswer
        exact ⟨_, hlookup.bind.trans hanswer.bind, rfl, rfl, rfl, rfl, by simp [hsink]⟩
      | paused =>
        rw [hsink] at hanswer
        refine ⟨_, hlookup.bind.trans (hanswer.bind.trans (Leads.bind leads_modify)), ?_⟩
        exact ⟨rfl, by simp, by simp, by simp, by simp [hsink]⟩

lemma retryDelayMs_gives (co : Coordinator) (now : ℤ)
    (sink : DeliveryAttempt → DeliverDisposition) (attempt : ℕ) :
    Gives (World.fixed now sink i) (fun delay w₁ => co.MayDelay attempt delay ∧ w₁ = w)
      (co.retryDelayMs attempt) w := by
  have hbackoff : Gives (World.fixed now sink i)
      (fun backoff w₁ => (¬(co.config.jitterFraction > 0 ∧ backoffBase co.config attempt > 1) →
        backoff = backoffBase co.config attempt) ∧ w₁ = w) (co.backoffMs attempt) w := by
    unfold backoffMs
    dsimp only
    split
    · rename_i hjitter
      refine Gives.bind (Gives.ask fun ω => ⟨ω.jittered, w, rfl, Gives.ret ⟨?_, rfl⟩⟩)
      exact fun hno => absurd hjitter hno
    · exact Gives.ret ⟨fun _ => rfl, rfl⟩
  refine Gives.bind (hbackoff.mono ?_)
  rintro backoff _ ⟨hb, rfl⟩
  exact Gives.ret ⟨⟨backoff, hb, rfl⟩, rfl⟩

lemma retryDelayMs_leads {co : Coordinator} (hjitter : co.config.jitterFraction = 0) (now : ℤ)
    (sink : DeliveryAttempt → DeliverDisposition) (attempt : ℕ) :
    ∃ delay, co.MayDelay attempt delay ∧
      Leads (World.fixed now sink i) (co.retryDelayMs attempt) w (.ret delay) w := by
  refine ⟨_, ⟨backoffBase co.config attempt, fun _ => rfl, rfl⟩, ?_⟩
  have hbackoff : co.backoffMs attempt = .ret (backoffBase co.config attempt) := by
    simp [backoffMs, hjitter]
  rw [retryDelayMs, hbackoff]
  exact Leads.refl _ _

lemma writeClaim_leads (message : Message) (head : Delivery) (delay : ℤ) :
    ∃ w₁, Leads (c.handle i)
        (do
          Prog.when (!isLegacyClientMessageId message.command.clientMessageId.value) <|
            Code.modify fun p => { p with
              tickNextAttemptsMs :=
                p.tickNextAttemptsMs ++ [(c.claimedRow message delay head).nextAttemptAtMs] }
          Code.store (.updateDelivery (c.claimedRow message delay head))
          recordClaim head.state (isLegacyClientMessageId message.command.clientMessageId.value)
            (c.claimedRow message delay head)
          pure (c.claimedRow message delay head))
        w (.ret (c.claimedRow message delay head)) w₁ ∧
      ClaimEffect c i w ⟨[c.claimedRow message delay head], [], false⟩ w₁ := by
  have hrecord (legacy : Bool) (row : Delivery) (w : World ι) :
      ∃ w₁, Leads (c.handle i) (recordClaim head.state legacy row) w (.ret ()) w₁ ∧
        w₁.store = w.store ∧ w₁.process = w.process ∧ w₁.sent = w.sent := by
    cases legacy with
    | false =>
      refine ⟨_, (Leads.bind leads_record).trans ((Leads.bind leads_record).trans
        (Leads.refl _ _)), rfl, rfl, rfl⟩
    | true =>
      refine ⟨_, (Leads.bind leads_record).trans ((Leads.bind leads_record).trans
        ((Leads.bind leads_record).trans leads_record)), rfl, rfl, rfl⟩
  cases isLegacyClientMessageId message.command.clientMessageId.value with
  | true =>
    obtain ⟨w₁, hw1, hstore, hprocess, hsent⟩ := hrecord true (c.claimedRow message delay head)
      { w with store := w.store.updateDelivery (c.claimedRow message delay head) }
    refine ⟨w₁, (Leads.bind (Leads.refl _ _)).trans ((Leads.bind leads_store).trans hw1.bind),
      hstore, ?_, ?_, ?_, hsent⟩
    · rw [hprocess]
      rfl
    · rw [hprocess]
    · rw [hprocess]
  | false =>
    obtain ⟨w₁, hw1, hstore, hprocess, hsent⟩ := hrecord false (c.claimedRow message delay head)
      { w with
        store := w.store.updateDelivery (c.claimedRow message delay head)
        process := Function.update w.process i { w.process i with
          tickNextAttemptsMs := (w.process i).tickNextAttemptsMs ++
            [(c.claimedRow message delay head).nextAttemptAtMs] } }
    refine ⟨w₁, (Leads.bind leads_modify).trans ((Leads.bind leads_store).trans hw1.bind),
      hstore, ?_, ?_, ?_, hsent⟩
    all_goals rw [hprocess]; simp

lemma writeClaim_gives (message : Message) (head : Delivery) :
    Gives (c.handle i) (fun row w₁ => ∃ delay, c.co.MayDelay (nextAttempt head) delay ∧
        row = c.claimedRow message delay head ∧ ClaimEffect c i w ⟨[row], [], false⟩ w₁)
      (c.co.writeClaim c.session c.now message head) w := by
  refine Gives.bind ((retryDelayMs_gives c.co c.now c.sink (nextAttempt head)).mono ?_)
  rintro delay _ ⟨hdelay, rfl⟩
  obtain ⟨w₁, hw1, heffect⟩ := writeClaim_leads (i := i) (c := c) message head delay
  exact Gives.of_leads hw1 (Gives.ret ⟨delay, hdelay, rfl, heffect⟩)

/-- **The claim loop** comes to one of the outcomes, or it hangs. -/
lemma claimLoop_gives (hfind : w.store.findMessage = c.find) :
    Gives (c.handle i)
      (fun paused w₁ => ∃ o, c.Claims fuel rows o ∧ paused = o.paused ∧ ClaimEffect c i w o w₁)
      (c.co.claimLoop c.session c.now fuel rows) w := by
  induction fuel generalizing rows w with
  | zero => exact Gives.hang
  | succ fuel ih =>
    have hleads := claimLoop_leads_round i rows fuel hfind
    cases hround : c.round rows with
    | stop attempts paused =>
      rw [hround] at hleads
      obtain ⟨w₁, hw1, heffect⟩ := hleads
      exact Gives.of_leads hw1 (Gives.ret ⟨_, .stop hround, rfl, heffect⟩)
    | claim place message head =>
      rw [hround] at hleads
      obtain ⟨w₁, hw1, heffect1⟩ := hleads
      refine Gives.of_leads hw1 (Gives.bind ((writeClaim_gives message head).mono ?_))
      rintro _ w₂ ⟨delay, hdelay, rfl, heffect2⟩
      have hfind2 : w₂.store.findMessage = c.find := by
        rw [heffect2.findMessage, heffect1.findMessage, hfind]
      refine (ih hfind2).mono ?_
      rintro paused w3 ⟨o, ho, rfl, heffect3⟩
      exact ⟨_, .claim hround hdelay ho, rfl,
        (heffect1.append rfl heffect2).append rfl heffect3⟩

lemma claimLoop_leads (hjitter : c.co.config.jitterFraction = 0 ∨ o.writes = [])
    (hfind : w.store.findMessage = c.find) (ho : c.Claims fuel rows o) :
    ∃ w₁, Leads (c.handle i) (c.co.claimLoop c.session c.now fuel rows) w (.ret o.paused) w₁ ∧
      ClaimEffect c i w o w₁ := by
  induction ho generalizing w with
  | @stop fuel rows _ _ hround =>
    have hleads := claimLoop_leads_round i rows fuel hfind
    rwa [hround] at hleads
  | @claim fuel rows place message head delay o hround hdelay _ ih =>
    have hno : c.co.config.jitterFraction = 0 := hjitter.resolve_right (by simp)
    have hleads := claimLoop_leads_round i rows fuel hfind
    rw [hround] at hleads
    obtain ⟨w₁, hw1, heffect1⟩ := hleads
    obtain ⟨delay', hdelay', hchoice⟩ := retryDelayMs_leads (i := i) (w := w₁) hno c.now c.sink
      (nextAttempt head)
    obtain rfl := hdelay.unique hno hdelay'
    obtain ⟨w₂, hw2, heffect2⟩ := writeClaim_leads (i := i) (c := c) (w := w₁) message head delay
    have hfind2 : w₂.store.findMessage = c.find := by
      rw [heffect2.findMessage, heffect1.findMessage, hfind]
    obtain ⟨w3, hw3, heffect3⟩ := ih (.inl hno) hfind2
    have hwrite : Leads (c.handle i) (c.co.writeClaim c.session c.now message head) w₁
        (.ret (c.claimedRow message delay head)) w₂ := hchoice.bind.trans hw2
    exact ⟨w3, hw1.trans (hwrite.bind.trans hw3),
      (heffect1.append rfl heffect2).append rfl heffect3⟩

/-! ### All conversations -/

lemma claimConversations_gives (hfind : w.store.findMessage = c.find)
    (groups : List (ℕ × List Delivery)) :
    Gives (c.handle i) (fun _ w₁ => ∃ o, c.ClaimsAll groups o ∧ ClaimEffect c i w o w₁)
      (c.co.claimConversations c.session c.now groups) w := by
  induction groups generalizing w with
  | nil => exact Gives.ret ⟨{}, rfl, ClaimEffect.refl c i w⟩
  | cons g rest ih =>
    refine Gives.bind ((claimLoop_gives hfind).mono ?_)
    rintro _ w₁ ⟨o1, ho1, rfl, heffect1⟩
    cases hpaused : o1.paused with
    | true => exact Gives.ret ⟨o1, ⟨o1, ho1, by simp [hpaused]⟩, heffect1⟩
    | false =>
      refine (ih (heffect1.findMessage.trans hfind)).mono ?_
      rintro _ w₂ ⟨o2, ho2, heffect2⟩
      refine ⟨o1.append o2, ⟨o1, ho1, ?_⟩, heffect1.append hpaused heffect2⟩
      rw [if_neg (by simp [hpaused])]
      exact ⟨o2, ho2, rfl⟩

lemma claimConversations_leads (hjitter : c.co.config.jitterFraction = 0 ∨ o.writes = [])
    (hfind : w.store.findMessage = c.find) {groups : List (ℕ × List Delivery)}
    (ho : c.ClaimsAll groups o) :
    ∃ w₁, Leads (c.handle i) (c.co.claimConversations c.session c.now groups) w (.ret ()) w₁ ∧
      ClaimEffect c i w o w₁ := by
  induction groups generalizing w o with
  | nil =>
    obtain rfl := ho
    exact ⟨w, Leads.refl _ _, ClaimEffect.refl c i w⟩
  | cons g rest ih =>
    obtain ⟨o1, ho1, hrest⟩ := ho
    cases hpaused : o1.paused with
    | true =>
      rw [if_pos hpaused] at hrest
      obtain rfl := hrest
      obtain ⟨w₁, hw1, heffect1⟩ := claimLoop_leads (i := i) hjitter hfind ho1
      rw [hpaused] at hw1
      exact ⟨w₁, hw1.bind, heffect1⟩
    | false =>
      rw [if_neg (by simp [hpaused])] at hrest
      obtain ⟨o2, ho2, rfl⟩ := hrest
      have hboth : c.co.config.jitterFraction = 0 ∨ o1.writes = [] ∧ o2.writes = [] :=
        hjitter.imp_right List.append_eq_nil_iff.1
      obtain ⟨w₁, hw1, heffect1⟩ := claimLoop_leads (i := i) (hboth.imp_right And.left) hfind ho1
      obtain ⟨w₂, hw2, heffect2⟩ := ih (hboth.imp_right And.right)
        (heffect1.findMessage.trans hfind) ho2
      rw [hpaused] at hw1
      exact ⟨w₂, hw1.bind.trans hw2, heffect1.append hpaused heffect2⟩

/-! ### A claim -/

lemma claimFor_leads_paused (hpaused : c.session ∈ (w.process i).paused) :
    Leads (c.handle i) (c.co.claimFor c.session) w (.ret ()) w := by
  refine (Leads.bind leads_load).trans ?_
  rw [if_pos hpaused]
  exact Leads.refl _ _

lemma claimFor_leads_conversations (hpaused : c.session ∉ (w.process i).paused) :
    Leads (c.handle i) (c.co.claimFor c.session) w
      (c.co.claimConversations c.session c.now (w.groupsOf c.session))
      { w with clock := c.now } := by
  refine (Leads.bind leads_load).trans ?_
  rw [if_neg hpaused]
  exact (Leads.bind leads_store).trans (Leads.bind leads_nowMs)

lemma claimFor_gives (hfind : w.store.findMessage = c.find)
    (hpaused : c.session ∉ (w.process i).paused) :
    Gives (c.handle i)
      (fun _ w₁ => ∃ o, c.ClaimsAll (w.groupsOf c.session) o ∧ ClaimEffect c i w o w₁)
      (c.co.claimFor c.session) w := by
  refine Gives.of_leads (claimFor_leads_conversations hpaused) ?_
  have hclaims := claimConversations_gives (i := i) (w := { w with clock := c.now }) hfind
    (w.groupsOf c.session)
  refine hclaims.mono ?_
  rintro _ w₁ ⟨o, ho, heffect⟩
  exact ⟨o, ho, heffect.store, heffect.paused, heffect.active, heffect.observed, heffect.sent⟩

lemma claimFor_leads (hjitter : c.co.config.jitterFraction = 0 ∨ o.writes = [])
    (hfind : w.store.findMessage = c.find) (hpaused : c.session ∉ (w.process i).paused)
    (ho : c.ClaimsAll (w.groupsOf c.session) o) :
    ∃ w₁, Leads (c.handle i) (c.co.claimFor c.session) w (.ret ()) w₁ ∧
      ClaimEffect c i w o w₁ := by
  obtain ⟨w₁, hw1, heffect⟩ := claimConversations_leads (i := i) (w := { w with clock := c.now })
    hjitter hfind ho
  exact ⟨w₁, (claimFor_leads_conversations hpaused).trans hw1,
    heffect.store, heffect.paused, heffect.active, heffect.observed, heffect.sent⟩

lemma claimFor_leads_again (hfind : w.store.findMessage = c.find)
    (hnothing : c.session ∈ (w.process i).paused ∨
      c.Settled (w.store.deliveriesByRecipient c.session.userId)) :
    ∃ attempts w₁, Leads (c.handle i) (c.co.claimFor c.session) w (.ret ()) w₁ ∧
      ClaimEffect c i w ⟨[], attempts, false⟩ w₁ ∧
      ((∀ a, c.sink a = .accepted) → attempts = []) := by
  by_cases hpaused : c.session ∈ (w.process i).paused
  · exact ⟨[], w, claimFor_leads_paused hpaused, ClaimEffect.refl c i w, fun _ => rfl⟩
  · have hsettled := hnothing.resolve_left hpaused
    obtain ⟨attempts, ho⟩ := hsettled.claimsAll
    obtain ⟨w₁, hw1, heffect⟩ := claimFor_leads (.inr rfl) hfind hpaused ho
    exact ⟨attempts, w₁, hw1, heffect, fun hsink => hsettled.attempts_of_accepting hsink ho⟩

end Claims

end MuduoChat
