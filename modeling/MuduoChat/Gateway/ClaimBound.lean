import MuduoChat.Gateway.ClaimSpec
import MuduoChat.Lib.Total

/-!
# How often a claim calls the sink

The claim loop takes the first open row of a conversation again after every accepted attempt.  An
accepted row is acknowledged, or it has a lease that lasts, and so it cannot be claimed again; an
answer other than an acceptance ends the loop.  Hence the loop ends, and it calls the sink at most
once for each row of its snapshot that can be claimed.  This does not depend on what is in the
store, on the clock or on the answers of the sink.
-/

namespace MuduoChat

open Std Coordinator Prog

lemma Json.toInt64_of_lt {n : ℕ} (h : n < 2 ^ 63) : Json.toInt64 n = n := by
  rw [Json.toInt64, BitVec.toInt_ofInt, Int.bmod_eq_of_le (by omega) (by omega)]

/-- The row for which an attempt is made. -/
def DeliveryAttempt.key (a : DeliveryAttempt) : DeliveryKey :=
  ⟨a.messageId.value, a.recipient.value⟩

@[simp] lemma attemptFor_key (message : Message) (head : Delivery) :
    (attemptFor message head).key = head.key := rfl

/-! ### Rows, one by one -/

section Rows

variable {now : ℤ} {rows : List Delivery} {head row : Delivery} {n : ℕ}

lemma filter_claimable_set (hn : rows[n]? = some head) (hhead : claimable now head = true)
    (hrow : claimable now row = false) :
    (head :: (rows.set n row).filter (claimable now)).Perm (rows.filter (claimable now)) := by
  induction rows generalizing n with
  | nil => simp at hn
  | cons d rows ih =>
    cases n with
    | zero =>
      obtain rfl : d = head := by simpa using hn
      simp [hhead, hrow]
    | succ n =>
      have hrest := ih (by simpa using hn)
      by_cases hd : claimable now d = true
      · simpa [hd] using (List.Perm.swap d head _).trans (hrest.cons d)
      · simpa [hd] using hrest

lemma subperm_flatMap_filter {α κ : Type} [DecidableEq κ] (f : α → κ) (l : List α) {ks : List κ}
    (hks : ks.Nodup) : (ks.flatMap fun c => l.filter fun a => f a = c).Subperm l := by
  induction ks generalizing l with
  | nil => exact List.nil_subperm
  | cons c ks ih =>
    obtain ⟨hc, hks⟩ := List.nodup_cons.1 hks
    -- the other groups are those of the elements outside this one
    have hrest : (ks.flatMap fun c' => l.filter fun a => f a = c') =
        ks.flatMap fun c' => (l.filter fun a => !decide (f a = c)).filter fun a => f a = c' := by
      refine List.flatMap_congr fun c' hc' => ?_
      rw [List.filter_filter]
      refine List.filter_congr fun a _ => ?_
      have hne : c' ≠ c := fun h => hc (h ▸ hc')
      by_cases ha : f a = c'
      · simp [ha, hne]
      · simp [ha]
    rw [List.flatMap_cons, hrest]
    have hsub := ih (l.filter fun a => !decide (f a = c)) hks
    exact ((List.Subperm.refl _).append hsub).trans
      (List.filter_append_perm (fun a => decide (f a = c)) l).subperm

end Rows

/-! ### Programs that return, whatever they are answered -/

/-- The program returns, and `Q` holds then, whatever the clock, the sink and the random source
answer. -/
abbrev World.Ends {ι : Type} [DecidableEq ι] {α : Type} (i : ι) (Q : α → World ι → Prop)
    (p : Code α) (w : World ι) : Prop :=
  p.Completes (World.handle i) (fun _ => True) Q w

section Rules

variable {ι : Type} [DecidableEq ι] {i : ι} {w : World ι} {α : Type} {Q : α → World ι → Prop}

lemma ends_store {c : StoreCall} {f : c.Value → Code α}
    (h : World.Ends i Q (f (w.store.answer c).1) { w with store := (w.store.answer c).2 }) :
    World.Ends i Q (Code.store c >>= f) w :=
  Completes.bind (Completes.ask fun _ _ => ⟨_, _, rfl, h⟩)

lemma ends_deliver {attempt : DeliveryAttempt} {f : DeliverDisposition → Code α}
    (h : ∀ d, World.Ends i Q (f d) { w with sent := (attempt, d) :: w.sent }) :
    World.Ends i Q (Code.deliver attempt >>= f) w :=
  Completes.bind (Completes.ask fun ω _ => ⟨ω.disposition, _, rfl, h ω.disposition⟩)

lemma ends_nowMs {f : ℤ → Code α} (h : ∀ now, World.Ends i Q (f now) { w with clock := now }) :
    World.Ends i Q (Code.nowMs >>= f) w :=
  Completes.bind (Completes.ask fun ω _ => ⟨ω.now, _, rfl, h ω.now⟩)

lemma ends_load {f : Process → Code α} (h : World.Ends i Q (f (w.process i)) w) :
    World.Ends i Q (Code.load >>= f) w :=
  Completes.bind (Completes.ask fun _ _ => ⟨_, _, rfl, h⟩)

lemma ends_modify {g : Process → Process} {f : Unit → Code α}
    (h : World.Ends i Q (f ())
      { w with process := Function.update w.process i (g (w.process i)) }) :
    World.Ends i Q (Code.modify g >>= f) w :=
  Completes.bind (Completes.bind (Completes.ask fun _ _ =>
    ⟨_, _, rfl, Completes.ask fun _ _ => ⟨_, _, rfl, h⟩⟩))

lemma ends_record {e : MetricEvent} {Q : Unit → World ι → Prop}
    (h : Q () { w with metrics := e :: w.metrics }) : World.Ends i Q (Code.record e) w :=
  Completes.ask fun _ _ => ⟨_, _, rfl, h⟩

end Rules

section Made

variable {ι : Type} {w w' : World ι} {rows rows' : List Delivery}

/-- Attempts have been made, each for another one of some rows. -/
def MadeFor (w : World ι) (rows : List Delivery) (w' : World ι) : Prop :=
  ∃ made, w'.sent = made ++ w.sent ∧
    (made.map fun a => a.1.key).Subperm (rows.map Delivery.key)

lemma MadeFor.of_eq (h : w'.sent = w.sent) (rows : List Delivery) : MadeFor w rows w' :=
  ⟨[], h, List.nil_subperm⟩

lemma MadeFor.of_subperm (h : MadeFor w rows w') (hrows : rows.Subperm rows') :
    MadeFor w rows' w' := by
  obtain ⟨made, hsent, hmade⟩ := h
  obtain ⟨l, hperm, hsub⟩ := hrows
  exact ⟨made, hsent,
    hmade.trans ⟨l.map Delivery.key, hperm.map Delivery.key, hsub.map Delivery.key⟩⟩

lemma MadeFor.append {w1 : World ι} (h : MadeFor w rows w1) (h' : MadeFor w1 rows' w') :
    MadeFor w (rows ++ rows') w' := by
  obtain ⟨made, hsent, hsub⟩ := h
  obtain ⟨made', hsent', hsub'⟩ := h'
  refine ⟨made' ++ made, by rw [hsent', hsent, List.append_assoc], ?_⟩
  rw [List.map_append, List.map_append]
  exact (List.perm_append_comm.subperm).trans (hsub.append hsub')

lemma madeFor_attempt (w : World ι) (message : Message) (head : Delivery)
    (d : DeliverDisposition) :
    MadeFor w [head] { w with sent := (attemptFor message head, d) :: w.sent } :=
  ⟨[(attemptFor message head, d)], rfl, List.Subperm.refl _⟩

end Made

section Claims

variable {ι : Type} [DecidableEq ι] {i : ι} {co : Coordinator} {session : SessionIdentity}
  {w : World ι} {now : ℤ}

lemma retryDelayMs_ends {attempt : ℕ} {Q : ℤ → World ι → Prop} (h : ∀ delay, Q delay w) :
    World.Ends i Q (co.retryDelayMs attempt) w := by
  have hbackoff : World.Ends i (fun _ w1 => w1 = w) (co.backoffMs attempt) w := by
    unfold backoffMs
    dsimp only
    split
    · exact Completes.bind (Completes.ask fun ω _ => ⟨ω.jittered, w, rfl, rfl⟩)
    · exact rfl
  refine Completes.bind (hbackoff.mono ?_)
  rintro backoff _ rfl
  exact h _

lemma recordClaim_ends (src : DeliveryState) (legacy : Bool) (row : Delivery) :
    World.Ends i (fun _ w1 => w1.sent = w.sent) (recordClaim src legacy row) w := by
  refine Completes.bind (ends_record (Completes.bind (ends_record ?_)))
  cases legacy with
  | false => exact rfl
  | true => exact Completes.bind (ends_record (ends_record rfl))

lemma writeClaim_ends (message : Message) (head : Delivery) :
    World.Ends i (fun row w1 => (∃ delay legacy, row = co.claimed session now delay legacy head) ∧
        w1.sent = w.sent)
      (co.writeClaim session now message head) w := by
  refine Completes.bind (retryDelayMs_ends fun delay => ?_)
  refine Completes.bind (Completes.mono (Q := fun _ w1 => w1.sent = w.sent) ?_ ?_)
  · -- the next attempt is noted in the memory of the process
    cases isLegacyClientMessageId message.command.clientMessageId.value with
    | true => exact rfl
    | false =>
      exact Completes.bind (Completes.ask fun _ _ =>
        ⟨_, _, rfl, Completes.ask fun _ _ => ⟨_, _, rfl, rfl⟩⟩)
  · intro _ w1 h1
    refine ends_store (Completes.bind ((recordClaim_ends _ _ _).mono ?_))
    intro _ w2 h2
    exact ⟨⟨delay, _, rfl⟩, h2.trans h1⟩

/-- **The claim loop** ends, and makes at most one attempt for each row that can be claimed. -/
lemma claimLoop_ends (hlease : 0 < Json.toInt64 co.leaseMs) {fuel : ℕ} {rows : List Delivery}
    (hfuel : rows.countP (claimable now) < fuel) :
    World.Ends i (fun _ w1 => MadeFor w (rows.filter (claimable now)) w1)
      (co.claimLoop session now fuel rows) w := by
  induction fuel generalizing rows w with
  | zero => exact absurd hfuel (Nat.not_lt_zero _)
  | succ fuel ih =>
    have hnone : MadeFor w (rows.filter (claimable now)) w := .of_eq rfl _
    unfold claimLoop
    split
    · exact hnone
    · rename_i n head hhead
      split
      · rename_i hclaimable
        have hn : rows[n]? = some head := by
          rcases headFrom_origin hhead with hbest | ⟨n', rfl, hn, -⟩
          · cases hbest
          · simpa using hn
        have hmem : head ∈ rows.filter (claimable now) :=
          List.mem_filter.2 ⟨List.mem_of_getElem? hn, hclaimable⟩
        have hone (message : Message) (d : DeliverDisposition) :
            MadeFor w (rows.filter (claimable now))
              { w with sent := (attemptFor message head, d) :: w.sent } :=
          (madeFor_attempt w message head d).of_subperm (List.singleton_subperm_iff.2 hmem)
        refine ends_store ?_
        dsimp only [InMemoryMessageStore.answer]
        split
        · exact hnone
        · rename_i message _
          refine ends_deliver fun d => ?_
          cases d with
          | closed => exact hone message _
          | paused => exact ends_modify (hone message _)
          | accepted =>
            refine Completes.bind ((writeClaim_ends message head).mono ?_)
            rintro _ w1 ⟨⟨delay, legacy, rfl⟩, hsent⟩
            -- the row that has been written cannot be claimed again
            have hrow : claimable now (co.claimed session now delay legacy head) = false :=
              claimable_claimed hlease
            have hlt := countP_claimable_set hn hclaimable hrow
            refine (ih (by omega)).mono fun _ w2 hmade => ?_
            have hfirst : MadeFor w [head] w1 := by
              obtain ⟨made, hmade1, hsub⟩ := madeFor_attempt w message head .accepted
              exact ⟨made, hsent.trans hmade1, hsub⟩
            exact (hfirst.append hmade).of_subperm
              (filter_claimable_set hn hclaimable hrow).subperm
      · exact hnone

lemma claimConversations_ends (hlease : 0 < Json.toInt64 co.leaseMs)
    (groups : List (ℕ × List Delivery)) :
    World.Ends i (fun _ w1 => MadeFor w (groups.flatMap Prod.snd) w1)
      (co.claimConversations session now groups) w := by
  induction groups generalizing w with
  | nil => exact MadeFor.of_eq rfl _
  | cons g rest ih =>
    obtain ⟨c, rows⟩ := g
    have hfuel : rows.countP (claimable now) < rows.length + 1 + co.patience := by
      have hle := List.countP_le_length (p := claimable now) (l := rows)
      omega
    refine Completes.bind ((claimLoop_ends hlease hfuel).mono ?_)
    intro paused w1 hmade
    have hrows : MadeFor w rows w1 := hmade.of_subperm List.filter_sublist.subperm
    cases paused with
    | true =>
      rw [List.flatMap_cons]
      exact hrows.of_subperm (List.sublist_append_left _ _).subperm
    | false => exact ih.mono fun _ w2 h2 => hrows.append h2

def InMemoryMessageStore.openRows (s : InMemoryMessageStore) (u : UserId) : List Delivery :=
  (s.deliveriesByRecipient u).filter fun d => !d.state.terminal

lemma subperm_byConversation (deliveries : List Delivery) :
    ((byConversation deliveries).toList.flatMap Prod.snd).Subperm
      (deliveries.filter fun d => !d.state.terminal) := by
  have hgroups : (byConversation deliveries).toList.flatMap Prod.snd =
      ((byConversation deliveries).toList.map Prod.fst).flatMap fun c =>
        (deliveries.filter fun d => !d.state.terminal).filter fun d =>
          d.conversationId.value = c := by
    rw [List.flatMap_map]
    refine List.flatMap_congr fun g hg => ?_
    rw [snd_of_mem_byConversation hg, List.filter_filter]
    exact List.filter_congr fun d _ => Bool.and_comm _ _
  rw [hgroups]
  exact subperm_flatMap_filter _ _ (OrderedMap.nodup_keys_toList _)

lemma claimFor_ends (hlease : 0 < Json.toInt64 co.leaseMs) :
    World.Ends i (fun _ w1 => MadeFor w (w.store.openRows session.userId) w1)
      (co.claimFor session) w := by
  refine ends_load ?_
  split
  · exact MadeFor.of_eq rfl _
  · refine ends_store (ends_nowMs fun now => ?_)
    refine (claimConversations_ends hlease _).mono fun _ w1 hmade => ?_
    exact hmade.of_subperm (subperm_byConversation _)

end Claims

/-- **The claim loop terminates.**  Whatever is in the store, and whatever the sink and the clock
answer, a claim returns, and it has called the sink at most once for each row of the user that was
not terminal. -/
theorem claim_terminates {ι : Type} [DecidableEq ι] (co : Coordinator) (i : ι)
    (session : SessionIdentity) (w : World ι) (hlease : 1 ≤ co.leaseMs)
    (hoverflow : co.leaseMs < 2 ^ 63) :
    World.Ends i (fun _ w₁ => ∃ made, w₁.sent = made ++ w.sent ∧
        (made.map fun a => a.1.key).Subperm
          ((w.store.openRows session.userId).map Delivery.key) ∧
        made.length ≤ (w.store.openRows session.userId).length)
      (co.claimFor session) w := by
  have hpos : 0 < Json.toInt64 co.leaseMs := by
    rw [Json.toInt64_of_lt hoverflow]
    omega
  refine (claimFor_ends hpos).mono fun _ w₁ hmade => ?_
  obtain ⟨made, hsent, hsub⟩ := hmade
  refine ⟨made, hsent, hsub, ?_⟩
  simpa using hsub.length_le

/-- Two messages for user 2, in two conversations.  The first one has been handed to the session of
the user, and has not been acknowledged. -/
def twoWaiting : World Unit :=
  let first := ({} : InMemoryMessageStore).insertMessage
    { conversationId := ⟨1⟩, senderId := ⟨1⟩, command := { directRecipient := ⟨2⟩ } }
  let second := first.2.insertMessage
    { conversationId := ⟨2⟩, senderId := ⟨3⟩, command := { directRecipient := ⟨2⟩ } }
  { store := (second.2.insertDelivery
      { messageId := ⟨1⟩, conversationId := ⟨1⟩, recipient := ⟨2⟩, state := .inFlight,
        leaseOwner := ⟨⟨2⟩, 1⟩, leaseBootId := 1, leaseUntilMs := 31000, attemptCount := 1,
        lastSentAtMs := 1000, nextAttemptAtMs := 31000 }).insertDelivery
      { messageId := ⟨2⟩, conversationId := ⟨2⟩, recipient := ⟨2⟩ }
    process := fun _ =>
      { activeByUser := (∅ : TreeMap UserId SessionIdentity).insert ⟨2⟩ ⟨⟨2⟩, 1⟩
        observedGenerationByUser := (∅ : TreeMap UserId ℕ).insert ⟨2⟩ 1 } }

/-- A claim for two rows calls the sink at most twice, and it does so twice if the lease of the
first row has run out and the sink accepts. -/
theorem claim_terminates_twoWaiting :
    World.Ends () (fun _ w₁ => w₁.sent.length ≤ 2)
        (Coordinator.claimFor { leaseMs := 30000, config := {}, bootId := 1 } ⟨⟨2⟩, 1⟩)
        twoWaiting ∧
      ((Coordinator.claimFor { leaseMs := 30000, config := {}, bootId := 1 } ⟨⟨2⟩, 1⟩).eval
        (World.handle ()) (List.replicate 30 { now := 40000, disposition := .accepted })
        twoWaiting).map (fun r => r.2.sent.length) = some 2 := by
  refine ⟨?_, by decide +kernel⟩
  refine (claim_terminates _ () ⟨⟨2⟩, 1⟩ twoWaiting (by decide) (by decide)).mono ?_
  rintro _ w₁ ⟨made, hsent, -, hlength⟩
  have htwo : (twoWaiting.store.openRows ⟨2⟩).length = 2 := by decide +kernel
  have hnone : twoWaiting.sent = [] := rfl
  rw [hsent, hnone, List.append_nil]
  exact hlength.trans htwo.le

end MuduoChat
